import Pylyskom.Session.Coding
import Pylyskom.Session.Servers

/-!
# Sessions over the wire

What an operation of a session achieves with a server that handles its requests, it achieves
over the wire with a program that handles them so; and how such programs are made, which keep a
state and find it again in the requests that they have read.
-/

namespace Pylyskom

/-! ## Requests -/

theorem ClientRequest.typed_eq {req : ClientRequest} {cls : {cls // cls ∈ requestClasses}}
    {args : List (ArgValue CookedMiscInfo)} (h : req.construction = some (cls, args))
    (hargs : List.Forall₂ (fun argDef val => argDef.dataType.accepts val = true) cls.1.args args) :
    req.typed = some ⟨cls.1, cls.2, ⟨args, hargs⟩⟩ := by
  have hinit := TypedRequest.init_args ⟨cls.1, cls.2, ⟨args, hargs⟩⟩
  unfold typed
  rw [h]
  exact congrArg Except.toOption hinit

/-! ## Answers -/

/-- The number of an error. -/
def ServerErrorClass.errorNo (cls : ServerErrorClass) : ℕ :=
  ((errorDict.find? fun entry => entry.2 = cls).map Prod.fst).getD 0

theorem lookup_errorNo (cls : ServerErrorClass) : errorDict.lookup cls.errorNo = some cls := by
  cases cls <;> rfl

/-- An answer with a value or with an error of the server. -/
def Answer.of {α : Type} (reply : α → OkReply) (result : Except Exn α) : Answer :=
  match result with
  | .ok a => .ok (reply a)
  | .error (.serverError e) => .error e.cls.errorNo e.errorStatus
  | .error _ => .error 2 0

theorem Answer.of_eq_ok {α : Type} {reply : α → OkReply} {result : Except Exn α}
    {okReply : OkReply} (h : Answer.of reply result = .ok okReply) : ∃ a, okReply = reply a := by
  unfold Answer.of at h
  split at h
  · cases h
    exact ⟨_, rfl⟩
  · cases h
  · cases h

theorem Answer.of_eq_error {α : Type} {reply : α → OkReply} {result : Except Exn α}
    {errorNo errorStatus : ℕ} (h : Answer.of reply result = .error errorNo errorStatus) :
    ∃ cls, errorDict.lookup errorNo = some cls := by
  unfold Answer.of at h
  split at h
  · cases h
  · cases h
    exact ⟨_, lookup_errorNo _⟩
  · cases h
    exact ⟨_, rfl⟩

/-- The method gets what the answer was made of. -/
theorem Answer.eq_of_gives {α : Type} {reply : α → OkReply} (hreply : Function.Injective reply)
    {x result : Except Exn α} (hx : ServerData.FromServer x)
    (h : (Answer.of reply x).Gives (result.map reply)) : result = x := by
  cases x with
  | ok a =>
    cases result with
    | ok b => rw [hreply (Except.ok.inj h)]
    | error e => cases h
  | error e =>
    obtain ⟨error, rfl⟩ := hx e rfl
    obtain ⟨cls, hcls, hresult⟩ := h
    rw [lookup_errorNo] at hcls
    obtain rfl := Option.some.inj hcls
    cases result with
    | ok b => cases hresult
    | error e => exact congrArg Except.error (Except.error.inj hresult)

open TextForm in
theorem ServerData.writable_getTextStat {data : ServerData}
    (hinfos : ∀ no textStat, data.textStats no = some textStat →
      ∃ groups, CookedMiscInfo.ofGroups groups = textStat.miscInfo) {no : ℕ} {textStat : TextStat}
    (h : data.getTextStat no = .ok textStat) : Writable (TextStat.text false textStat) := by
  refine writable_textStat (hinfos no textStat ?_)
  unfold ServerData.getTextStat at h
  split at h
  · cases h
    assumption
  · cases h

/-! ## Requests under their call numbers -/

/-- The replies to the calls are what the requests return. -/
def Answerable (table : List (ℕ × ClientRequest)) : Prop :=
  ∀ entry ∈ table, responseDict.lookup entry.1 = some entry.2.responseType

namespace Answerable

variable {table table' : List (ℕ × ClientRequest)} {callNo : ℕ} {made : ClientRequest}

theorem single (h : responseDict.lookup callNo = some made.responseType) :
    Answerable [(callNo, made)] :=
  List.forall_mem_singleton.mpr h

theorem append (h : Answerable table) (h' : Answerable table') : Answerable (table ++ table') :=
  List.forall_mem_append.mpr ⟨h, h'⟩

theorem lookup (h : Answerable table) (hmade : table.lookup callNo = some made) :
    responseDict.lookup callNo = some made.responseType := by
  obtain ⟨before, after, rfl, -⟩ := List.lookup_eq_some_iff.mp hmade
  exact h (callNo, made) (by simp)

end Answerable

open Requests in
/-- The requests that read the data of a server. -/
def readRequests (no : ℕ) : List (ℕ × ClientRequest) :=
  [(GET_TEXT_STAT, .getTextStat no), (GET_CONF_STAT, .getConfStat no),
    (GET_UCONF_STAT, .person (.getUconfStat no))]

theorem answerable_readRequests (no : ℕ) : Answerable (readRequests no) := by
  simp only [Answerable, readRequests, List.forall_mem_cons]
  exact ⟨rfl, rfl, rfl, fun _ hmem => absurd hmem List.not_mem_nil⟩

/-! ## Programs that keep a state -/

/-- A server that answers the requests of sessions from a state. -/
structure StateServer (ω μ : Type) where
  /-- The request that a session has made. -/
  request : ReadRequest μ → Option ClientRequest
  lookup : ∀ {req made}, request req = some made →
    responseDict.lookup req.callNo = some made.responseType
  reply : ω → (req : ClientRequest) → Except Exn req.Reply
  fromServer : ∀ w req, ServerData.FromServer (reply w req)
  next : ω → ClientRequest → ω

namespace StateServer

variable {ω μ : Type} (self : StateServer ω μ)

/-- The state after a request that was read. -/
def after (w : ω) (req : ReadRequest μ) : ω :=
  match self.request req with
  | some made => self.next w made
  | none => w

def answer (w : ω) (req : ReadRequest μ) : Answer :=
  match self.request req with
  | some made => .of made.okReply (self.reply w made)
  | none => .error 2 0

/-- The program of a server that begins in the given state. -/
def program (w : ω) : ServerProgram μ where
  answer earlier req := self.answer (earlier.foldl self.after w) req
  reply_type := by
    intro earlier req reply hanswer
    unfold answer at hanswer
    cases hmade : self.request req with
    | none =>
      rw [hmade] at hanswer
      cases hanswer
    | some made =>
      rw [hmade] at hanswer
      obtain ⟨value, rfl⟩ := Answer.of_eq_ok hanswer
      rw [self.lookup hmade, made.type_okReply]
  error_known := by
    intro earlier req errorNo errorStatus hanswer
    unfold answer at hanswer
    cases hmade : self.request req with
    | none =>
      rw [hmade] at hanswer
      cases hanswer
      exact ⟨_, rfl⟩
    | some made =>
      rw [hmade] at hanswer
      exact Answer.of_eq_error hanswer

/-- The request can be sent, and the server sees what it is. -/
def Sees (f : CookedMiscInfo → μ) (req : ClientRequest) : Prop :=
  ∃ typedReq, req.typed = some typedReq ∧ typedReq.Sendable ∧
    ∀ refNo, self.request (typedReq.received f refNo) = some req

variable {self} {f : CookedMiscInfo → μ} {w : ω}

theorem sees_of_construction {req : ClientRequest} {cls : {cls // cls ∈ requestClasses}}
    {args : List (ArgValue CookedMiscInfo)} (h : req.construction = some (cls, args))
    (hargs : List.Forall₂ (fun argDef val => argDef.dataType.accepts val = true) cls.1.args args)
    (hinfo : ∀ info, ArgValue.miscInfo info ∈ args → info.Sendable)
    (hrequest : ∀ refNo,
      self.request ⟨refNo, cls.1.callNo, args.map (ArgValue.received f)⟩ = some req) :
    self.Sees f req :=
  ⟨_, ClientRequest.typed_eq h hargs, hinfo, hrequest⟩

open TextForm in
/-- Every answer of the program can be written. -/
theorem writable_program {I : ω → Prop} (hw : I w) (hnext : ∀ {w req}, I w → I (self.next w req))
    (hreply : ∀ {w req value}, I w → self.reply w req = .ok value →
      Writable (req.okReply value).text)
    (earlier : List (ReadRequest μ)) (req : ReadRequest μ) (refNo : ℕ) :
    (((self.program w).answer earlier req).message refNo).lines.Nonempty := by
  have hafter : ∀ (earlier : List (ReadRequest μ)) (w : ω), I w →
      I (earlier.foldl self.after w) := by
    intro earlier
    induction earlier with
    | nil => exact fun w hw => hw
    | cons first earlier ih =>
      intro w hw
      refine ih _ ?_
      unfold after
      split
      · exact hnext hw
      · exact hw
  have herror : ∀ errorNo errorStatus,
      Writable ((Answer.error errorNo errorStatus).message refNo).value :=
    fun _ _ => (writable_token _).mul (writable_token _)
  apply ServerMessage.lines_nonempty
  change Writable ((self.answer (earlier.foldl self.after w) req).message refNo).value
  unfold answer
  cases hmade : self.request req with
  | none => exact herror 2 0
  | some made =>
    simp only []
    cases hvalue : self.reply (earlier.foldl self.after w) made with
    | ok value => exact hreply (hafter earlier w hw) hvalue
    | error e =>
      cases e with
      | serverError error => exact herror _ _
      | _ => exact herror 2 0

end StateServer

/-! ## Operations over the wire -/

variable {ω α μ : Type}

namespace Handling

/-- The program keeps a state, and handles with it every request that can be handled. -/
def ImplementedBy (handles : Handling ω) (f : CookedMiscInfo → μ) (program : ServerProgram μ)
    (w : ω) : Prop :=
  ∃ R : List (ReadRequest μ) → ω → Prop, R [] w ∧
    ∀ {earlier now} {req : ClientRequest} {typedReq : TypedRequest} {reply : Except Exn req.Reply},
      R earlier now → req.typed = some typedReq → (∃ reply after, handles now req reply after) →
      (program.answer earlier (typedReq.received f (earlier.length + 1))).Gives
        (reply.map req.okReply) →
      ∃ after, handles now req reply after ∧
        R (earlier ++ [typedReq.received f (earlier.length + 1)]) after

/-- A program that answers so that every request is handled which can be handled. -/
theorem implementedBy_program {handles : Handling ω} {f : CookedMiscInfo → μ}
    {self : StateServer ω μ} (w : ω)
    (hsees : ∀ {w req}, (∃ reply after, handles w req reply after) → self.Sees f req)
    (hhandles : ∀ {w req}, (∃ reply after, handles w req reply after) →
      handles w req (self.reply w req) (self.next w req)) :
    handles.ImplementedBy f (self.program w) w := by
  refine ⟨fun earlier now => now = earlier.foldl self.after w, rfl, ?_⟩
  rintro earlier _ req typedReq reply rfl htyped hhandled hgives
  obtain ⟨typedReq', htyped', -, hrequest⟩ := hsees hhandled
  obtain rfl := Option.some.inj (htyped.symm.trans htyped')
  have hmade := hrequest (earlier.length + 1)
  obtain ⟨construction, hconstruction, -⟩ := ClientRequest.cls_typed htyped
  have hsent : req.construction ≠ none := by simp [hconstruction]
  have hanswer : (self.program w).answer earlier (typedReq.received f (earlier.length + 1)) =
      .of req.okReply (self.reply (earlier.foldl self.after w) req) := by
    change self.answer _ _ = _
    rw [StateServer.answer, hmade]
  rw [hanswer] at hgives
  obtain rfl := Answer.eq_of_gives (ClientRequest.okReply_injective hsent)
    (self.fromServer _ req) hgives
  refine ⟨_, hhandles hhandled, ?_⟩
  change self.next _ req = _
  rw [List.foldl_append, List.foldl_cons, List.foldl_nil, StateServer.after, hmade]

/-- What can be handled can be sent. -/
def Sendable (handles : Handling ω) : Prop :=
  ∀ {w req}, (∃ reply after, handles w req reply after) →
    ∃ typedReq : TypedRequest, req.typed = some typedReq ∧ typedReq.Sendable

theorem sendable_of_sees {handles : Handling ω} {f : CookedMiscInfo → μ} {self : StateServer ω μ}
    (hsees : ∀ {w req}, (∃ reply after, handles w req reply after) → self.Sees f req) :
    handles.Sendable := by
  intro w req hhandled
  obtain ⟨typedReq, htyped, hsendable, -⟩ := hsees hhandled
  exact ⟨typedReq, htyped, hsendable⟩

variable {handles : Handling ω} {readMiscInfo : Parser μ} {f : CookedMiscInfo → μ}
  {program : ServerProgram μ} {w : ω} {s : SessionState} {op : SessionOp α}
  {P : SessionState × ω → Prop} {R : α → SessionState × ω → Prop}

/-- Whatever messages come in between, and in whichever order the client and the server take
their steps, the operation ends in its postcondition; and every run can be continued until it
has ended. -/
theorem remote (hread : ReadsMiscInfo readMiscInfo f)
    (hserver : handles.ImplementedBy f program w) (hsendable : handles.Sendable)
    (writable : ∀ earlier req refNo, ((program.answer earlier req).message refNo).lines.Nonempty)
    (hop : Triple handles.Serves P op (Returning R)) (hs : P (s, w))
    {c : Calling SessionState ClientCall ClientCall.Reply α μ}
    (h : Run (CallStep sessionCoding SessionState.handleAsyncMessage readMiscInfo program)
      (fun _ _ => True) (.start (op s)) c) :
    (∀ result t, c.method = .running (.done result t) →
      ∃ a now, result = .ok a ∧ R a (t, now)) ∧
    ∃ d result t, Run (CallStep sessionCoding SessionState.handleAsyncMessage readMiscInfo program)
      (fun _ _ => True) c d ∧ d.method = .running (.done result t) := by
  obtain ⟨implements, hstart, hhandles⟩ := hserver
  have hserves : ∀ {call : ClientCall} {s earlier now} {reply : Except Exn call.Reply} {t},
      implements earlier now → (∃ reply t, handles.Serves call (s, now) reply t) →
      sessionCoding.Serves f program SessionState.handleAsyncMessage call (s, earlier) reply t →
      ∃ after, handles.Serves call (s, now) reply (t.1, after) ∧ implements t.2 after := by
    rintro call s earlier now reply ⟨t, earlier'⟩ hR ⟨_, _, -, hserved⟩
      ⟨typed, htyped, rfl, hgives, msgs, rfl⟩
    obtain ⟨after, hafter, hR'⟩ := hhandles hR htyped ⟨_, _, hserved⟩ hgives
    exact ⟨after, ⟨s.forgets_foldl msgs, hafter⟩, hR'⟩
  have himitates : ∀ {m' : Suspended SessionState ClientCall ClientCall.Reply Exn α} {earlier},
      (op s).Comes (sessionCoding.Serves f program SessionState.handleAsyncMessage) [] m' earlier →
      ∃ now, m'.Achieves handles.Serves now (Returning R) := by
    intro m' earlier hcomes
    obtain ⟨now, hnow, -⟩ := (hop s w hs).imitate implements hserves hstart hcomes
    exact ⟨now, hnow⟩
  constructor
  · intro result t hdone
    obtain ⟨now, hnow⟩ := himitates ((h.reached hread).comes hdone)
    cases result with
    | ok a => exact ⟨a, now, rfl, hnow⟩
    | error e => exact hnow.elim
  · refine (h.reached hread).progress hread writable fun hcomes => ?_
    obtain ⟨now, ⟨reply, t, -, hhandled⟩, -⟩ := himitates hcomes
    exact hsendable ⟨reply, t.2, hhandled⟩

end Handling
end Pylyskom
