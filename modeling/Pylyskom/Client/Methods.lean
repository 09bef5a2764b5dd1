import Pylyskom.Client.RemoteCalls
import Pylyskom.Coroutine.Serving

/-!
# Methods over the wire

A method that makes one request after the other with the blocking client, whose handler
function changes the object of the method while it waits. It ends as it does when the server's
program serves it directly.
-/

namespace Pylyskom

variable {σ ρ α μ : Type} {ν : ρ → Type}

/-- How the requests of methods are made, and as what their replies come. -/
structure Coding (ρ : Type) (ν : ρ → Type) where
  /-- `none` for what is not a request of the protocol. -/
  typed : ρ → Option TypedRequest
  reply : (req : ρ) → ν req → OkReply
  /-- The response type of the request is that of its replies. -/
  exists_value : ∀ {req typedReq okReply}, typed req = some typedReq →
    responseDict.lookup typedReq.cls.callNo = some okReply.type → ∃ value, okReply = reply req value

/-- What a request has returned or raised is what the method gets. -/
def Coding.Returns (coding : Coding ρ ν) (req : ρ) (result : Except Exn OkReply)
    (reply : Except Exn (ν req)) : Prop :=
  result = reply.map (coding.reply req)

/-- The program of the server serves a request directly, given the requests before it, while
messages are handled. -/
def Coding.Serves (coding : Coding ρ ν) (f : CookedMiscInfo → μ) (program : ServerProgram μ)
    (handle : σ → AsyncMessage → σ) (req : ρ) (s : σ × List (ReadRequest μ))
    (reply : Except Exn (ν req)) (t : σ × List (ReadRequest μ)) : Prop :=
  ∃ typed, coding.typed req = some typed ∧
    t.2 = s.2 ++ [typed.received f (s.2.length + 1)] ∧
    (program.answer s.2 (typed.received f (s.2.length + 1))).Gives
      (reply.map (coding.reply req)) ∧
    ∃ msgs : List AsyncMessage, t.1 = msgs.foldl handle s.1

/-- A method on the blocking client. -/
inductive MethodState (σ ρ : Type) (ν : ρ → Type) (α : Type) : Type
  | running (method : Suspended σ ρ ν Exn α)
  | waiting (state : σ) (req : ρ) (resume : Except Exn (ν req) → σ → Suspended σ ρ ν Exn α)

structure Calling (σ ρ : Type) (ν : ρ → Type) (α μ : Type) where
  remote : Remote μ
  method : MethodState σ ρ ν α

/-- A step of the method, of the client that it uses, or of the server. The handler function
makes no requests. -/
inductive CallStep (coding : Coding ρ ν) (handle : σ → AsyncMessage → σ)
    (readMiscInfo : Parser μ) (program : ServerProgram μ) :
    Calling σ ρ ν α μ → RemoteAction → Calling σ ρ ν α μ → Prop
  | request {c : Calling σ ρ ν α μ} {s : σ} {req : ρ}
      {resume : Except Exn (ν req) → σ → Suspended σ ρ ν Exn α} {typed : TypedRequest}
      {remote : Remote μ} (running : c.method = .running (.await s req resume))
      (idle : c.remote.nest.stack = []) (coded : coding.typed req = some typed)
      (step : RemoteStep readMiscInfo program c.remote (.request typed) remote) :
      CallStep coding handle readMiscInfo program c (.request typed)
        ⟨remote, .waiting s req resume⟩
  | read {c : Calling σ ρ ν α μ} {remote : Remote μ}
      (step : RemoteStep readMiscInfo program c.remote (.client .read) remote) :
      CallStep coding handle readMiscInfo program c (.client .read) { c with remote }
  | handler {c : Calling σ ρ ν α μ} {s : σ} {req : ρ}
      {resume : Except Exn (ν req) → σ → Suspended σ ρ ν Exn α} {msg : AsyncMessage}
      {stack : List Frame} {remote : Remote μ} (waiting : c.method = .waiting s req resume)
      (top : c.remote.nest.stack = .handling msg :: stack)
      (step : RemoteStep readMiscInfo program c.remote (.client .endHandler) remote) :
      CallStep coding handle readMiscInfo program c (.client .endHandler)
        ⟨remote, .waiting (handle s msg) req resume⟩
  | returns {c : Calling σ ρ ν α μ} {s : σ} {req : ρ}
      {resume : Except Exn (ν req) → σ → Suspended σ ρ ν Exn α} {finished : Finished}
      {reply : Except Exn (ν req)} {remote : Remote μ}
      (waiting : c.method = .waiting s req resume)
      (step : RemoteStep readMiscInfo program c.remote (.client .dequeue) remote)
      (ended : remote.nest.finished = c.remote.nest.finished ++ [finished])
      (returned : coding.Returns req finished.result reply) :
      CallStep coding handle readMiscInfo program c (.client .dequeue)
        ⟨remote, .running (resume reply s)⟩
  | server {c : Calling σ ρ ν α μ} {a : RemoteAction} {remote : Remote μ}
      (step : RemoteStep readMiscInfo program c.remote a remote)
      (ofServer : a.OfServer) :
      CallStep coding handle readMiscInfo program c a { c with remote }

/-! ## The point that a method has come to -/

/-- The server has served the method directly up to the request that it waits for, whose loop
is the outermost call. -/
def MethodState.Follows (coding : Coding ρ ν) (f : CookedMiscInfo → μ) (program : ServerProgram μ)
    (handle : σ → AsyncMessage → σ) (m : Suspended σ ρ ν Exn α) (remote : Remote μ) :
    MethodState σ ρ ν α → Prop
  | running method =>
    remote.nest.stack = [] ∧
      m.Comes (coding.Serves f program handle) [] method (receivedAs f remote.requests)
  | waiting state req resume =>
    ∃ earlier typed s msgs, remote.requests = earlier ++ [typed] ∧
      coding.typed req = some typed ∧ state = List.foldl handle s msgs ∧
      m.Comes (coding.Serves f program handle) [] (.await s req resume)
        (receivedAs f earlier) ∧
      (remote.nest.stack = [.waiting (earlier.length + 1) typed.request] ∨
        ∃ msg, remote.nest.stack =
          [.handling msg, .waiting (earlier.length + 1) typed.request])

section Steps

variable {coding : Coding ρ ν} {f : CookedMiscInfo → μ} {program : ServerProgram μ}
  {handle : σ → AsyncMessage → σ} {m : Suspended σ ρ ν Exn α} {readMiscInfo : Parser μ}
  {c d : Calling σ ρ ν α μ} {a : RemoteAction}

/-- A step of the server changes no call. -/
theorem MethodState.Follows.congr {method : MethodState σ ρ ν α} {remote remote' : Remote μ}
    (h : method.Follows coding f program handle m remote)
    (hrequests : remote'.requests = remote.requests)
    (hstack : remote'.nest.stack = remote.nest.stack) :
    method.Follows coding f program handle m remote' := by
  cases method with
  | running method => rwa [Follows, hrequests, hstack]
  | waiting state req resume => rwa [Follows, hrequests, hstack]

/-- A pass of the loop of the innermost call may be followed by a call of the handler. -/
theorem Remote.Served.stack_read {s : Remote μ} (h : s.Served f program) {t : Nest}
    (step : NestStep s.nest .read t) :
    ∃ r req stack resp, s.nest.stack = .waiting r req :: stack ∧
      t.stack = Nest.handlerCalls resp ++ s.nest.stack := by
  cases step with
  | @read r req stack resp running top waits arrived =>
    rcases h.wired.readResponse_cases with ⟨resp, conn, hcall, -⟩ | ⟨conn, hcall⟩
    · refine ⟨r, req, stack, resp, top, ?_⟩
      rw [Nest.readResponse_eq hcall]
    · rw [hcall] at arrived
      cases arrived
  | readFails running top waits fails notBlocked =>
    rcases h.wired.readResponse_cases with ⟨resp, conn, hcall, -⟩ | ⟨conn, hcall⟩
    · rw [hcall] at fails
      cases fails
    · rw [hcall] at fails
      cases fails
      exact absurd rfl notBlocked

/-- **Each step of the method follows the server's program.** -/
theorem CallStep.follows (hread : ReadsMiscInfo readMiscInfo f)
    (hstep : CallStep coding handle readMiscInfo program c a d)
    (hserved : c.remote.Served f program)
    (h : c.method.Follows coding f program handle m c.remote) :
    d.method.Follows coding f program handle m d.remote := by
  cases hstep with
  | @request s req resume typed remote running idle coded step =>
    rw [running] at h
    obtain ⟨-, hcomes⟩ := h
    cases step with
    | @request _ t sendable step =>
      have ht : t = c.remote.nest.request typed.request := by
        cases step <;> rfl
      obtain ⟨written, heq⟩ := Nest.request_eq hserved.kept hserved.wired typed.request
      refine ⟨c.remote.requests, typed, s, [], rfl, coded, rfl, hcomes, Or.inl ?_⟩
      rw [ht, heq]
      simp only [idle, hserved.refNo]
  | @read remote step =>
    cases step with
    | @client _ t step waits =>
      obtain ⟨r, req, stack, resp, htop, hstack⟩ := hserved.stack_read step
      cases hmethod : c.method with
      | running method =>
        rw [hmethod] at h
        rw [h.1] at htop
        cases htop
      | waiting s req resume =>
        rw [hmethod] at h
        obtain ⟨earlier, typed, s, msgs, hrequests, hcoded, hs, hcomes, hcalls⟩ := h
        refine ⟨earlier, typed, s, msgs, hrequests, hcoded, hs, hcomes, ?_⟩
        rcases hcalls with hcalls | ⟨msg, hcalls⟩
        · change t.stack = _ ∨ ∃ msg, t.stack = _
          rw [hstack, hcalls]
          cases resp with
          | async msg => exact Or.inr ⟨msg, rfl⟩
          | ok refNo reply => exact Or.inl rfl
          | error refNo error => exact Or.inl rfl
        · rw [hcalls] at htop
          cases htop
  | @handler s req resume msg stack remote waiting top step =>
    rw [waiting] at h
    obtain ⟨earlier, typed, s, msgs, hrequests, hcoded, rfl, hcomes, hcalls⟩ := h
    cases step with
    | @client _ t step waits =>
      cases step with
      | endHandler running top' =>
        rcases hcalls with hcalls | ⟨msg', hcalls⟩
        · rw [hcalls] at top
          cases top
        · rw [hcalls] at top top'
          cases top
          cases top'
          refine ⟨earlier, typed, s, msgs ++ [msg], hrequests, hcoded, ?_, hcomes, Or.inl rfl⟩
          rw [List.foldl_append]
          rfl
  | @returns s req resume finished reply remote waiting step ended returned =>
    have hserved' := hserved.step hread step
    have hmem : finished ∈ remote.nest.finished := by
      rw [ended]
      exact List.mem_append_right _ (List.mem_singleton_self _)
    have hgives := hserved'.gives hmem
    rw [waiting] at h
    obtain ⟨earlier, typed, s, msgs, hrequests, hcoded, rfl, hcomes, hcalls⟩ := h
    cases step with
    | @client _ t step waits =>
      cases step with
      | @dequeue r req' stack running top queued =>
        rcases hcalls with hcalls | ⟨msg', hcalls⟩
        · rw [hcalls] at top
          cases top
          obtain rfl := List.singleton_inj.mp (List.append_cancel_left ended)
          obtain ⟨k, typed', hk, htyped, -, hgives⟩ := hgives
          obtain rfl : earlier.length = k := by
            simpa using hk
          change c.remote.requests[earlier.length]? = some typed' at htyped
          change (program.answer ((receivedAs f c.remote.requests).take earlier.length) _).Gives _
            at hgives
          rw [hrequests, List.getElem?_concat_length] at htyped
          obtain rfl := Option.some.inj htyped
          have htake : (receivedAs f (earlier ++ [typed])).take earlier.length =
              receivedAs f earlier := by
            rw [receivedAs_append_singleton, List.take_left' (length_receivedAs earlier)]
          rw [hrequests, htake] at hgives
          refine ⟨rfl, ?_⟩
          change m.Comes _ [] _ (receivedAs f c.remote.requests)
          rw [hrequests, receivedAs_append_singleton]
          refine hcomes.tail (u := (msgs.foldl handle s, _)) ⟨typed, hcoded, ?_, ?_, msgs, rfl⟩
          · rw [length_receivedAs]
          · rw [length_receivedAs, ← returned]
            exact hgives
        · rw [hcalls] at top
          cases top
  | @server a remote step ofServer =>
    cases step with
    | request sendable step => exact ofServer.elim
    | client step waits => exact ofServer.elim
    | serverReads read => exact h.congr rfl rfl
    | serverAnswers handled unanswered written arriving => exact h.congr rfl rfl
    | serverPushes written arriving => exact h.congr rfl rfl

/-- A step of the method is one of the client and the server. -/
theorem CallStep.remote (hstep : CallStep coding handle readMiscInfo program c a d) :
    RemoteStep readMiscInfo program c.remote a d.remote := by
  cases hstep with
  | request running idle coded step => exact step
  | read step => exact step
  | handler waiting top step => exact step
  | returns waiting step ended returned => exact step
  | server step ofServer => exact step

/-- What is known of a state that can be reached. -/
def Calling.Reached (coding : Coding ρ ν) (f : CookedMiscInfo → μ) (program : ServerProgram μ)
    (handle : σ → AsyncMessage → σ) (m : Suspended σ ρ ν Exn α) (c : Calling σ ρ ν α μ) : Prop :=
  c.remote.Served f program ∧ c.method.Follows coding f program handle m c.remote

theorem Calling.Reached.step (hread : ReadsMiscInfo readMiscInfo f)
    (hstep : CallStep coding handle readMiscInfo program c a d)
    (h : c.Reached coding f program handle m) : d.Reached coding f program handle m :=
  ⟨h.1.step hread hstep.remote, hstep.follows hread h.1 h.2⟩

/-- The state of a method, with the client and the server. -/
def Calling.start (m : Suspended σ ρ ν Exn α) : Calling σ ρ ν α μ := ⟨.start, .running m⟩

theorem Run.reached (hread : ReadsMiscInfo readMiscInfo f)
    (h : Run (CallStep coding handle readMiscInfo program) (fun _ _ => True) (.start m) c) :
    c.Reached coding f program handle m :=
  h.invariant ⟨Remote.Served.start, rfl, .refl _ _⟩ fun _ hstep hu => hu.step hread hstep

/-- The server has served the whole of a method that has come to its end. -/
theorem Calling.Reached.comes (h : c.Reached coding f program handle m) {result : Except Exn α}
    {s : σ} (hdone : c.method = .running (.done result s)) :
    m.Comes (coding.Serves f program handle) [] (.done result s) c.remote.handled := by
  obtain ⟨hserved, hfollows⟩ := h
  rw [hdone] at hfollows
  obtain ⟨hidle, hcomes⟩ := hfollows
  rw [hserved.handled_eq hidle]
  exact hcomes

/-- **A method over the wire ends as the server's program serves it.** Whatever is sent in
between, and in whichever order things happen, the result of a method that makes its requests
through the blocking client is one that it may have when the program of the server serves its
requests one after the other, and the server has read just these requests. -/
theorem Run.methodEnds (hread : ReadsMiscInfo readMiscInfo f)
    (h : Run (CallStep coding handle readMiscInfo program) (fun _ _ => True) (.start m) c)
    {result : Except Exn α} {s : σ} (hdone : c.method = .running (.done result s)) :
    m.Ends (coding.Serves f program handle) [] result (s, c.remote.handled) :=
  ((h.reached hread).comes hdone).ends

/-! ## Progress -/

/-- What the method waits for can be given to it. -/
theorem exists_returns {req : ρ} {typed : TypedRequest} (coded : coding.typed req = some typed)
    {earlier : List (ReadRequest μ)} {refNo : ℕ} {result : Except Exn OkReply}
    (hgives : (program.answer earlier (typed.received f refNo)).Gives result) :
    ∃ reply, coding.Returns req result reply := by
  cases hanswer : program.answer earlier (typed.received f refNo) with
  | ok okReply =>
    obtain ⟨value, rfl⟩ := coding.exists_value coded (program.reply_type hanswer)
    rw [hanswer] at hgives
    exact ⟨.ok value, hgives⟩
  | error errorNo errorStatus =>
    rw [hanswer] at hgives
    obtain ⟨cls, -, hresult⟩ := hgives
    exact ⟨.error _, hresult⟩

/-- A step of the client is one of the method that waits for it. -/
theorem CallStep.of_client (hread : ReadsMiscInfo readMiscInfo f)
    (hserved : c.remote.Served f program)
    (h : c.method.Follows coding f program handle m c.remote) {s : σ} {req : ρ}
    {resume : Except Exn (ν req) → σ → Suspended σ ρ ν Exn α}
    (waiting : c.method = .waiting s req resume) {b : NestAction} {remote : Remote μ}
    (step : RemoteStep readMiscInfo program c.remote (.client b) remote) :
    ∃ d, CallStep coding handle readMiscInfo program c (.client b) d ∧ d.remote = remote ∧
      ((∃ t, d.method = .waiting t req resume) ∨
        ∃ reply t, d.method = .running (resume reply t)) := by
  have hserved' := hserved.step hread step
  have hremote := step
  rw [waiting] at h
  obtain ⟨earlier, typed, first, msgs, hrequests, hcoded, -, -, hcalls⟩ := h
  cases step with
  | @client _ t step waits =>
    cases step with
    | program req running idle => simp at waits
    | handler req running top => simp at waits
    | serverSends => simp at waits
    | read => exact ⟨_, .read hremote, rfl, Or.inl ⟨s, waiting⟩⟩
    | readFails => exact ⟨_, .read hremote, rfl, Or.inl ⟨s, waiting⟩⟩
    | endHandler running top => exact ⟨_, .handler waiting top hremote, rfl, Or.inl ⟨_, rfl⟩⟩
    | @dequeue r req' stack running top queued =>
      rcases hcalls with hcalls | ⟨msg, hcalls⟩
      · rw [hcalls] at top
        cases top
        obtain ⟨k, typed', hk, htyped, -, hgives⟩ :=
          hserved'.gives (List.mem_append_right _ (List.mem_singleton_self _))
        obtain rfl : earlier.length = k := by simpa using hk
        change c.remote.requests[earlier.length]? = some typed' at htyped
        rw [hrequests, List.getElem?_concat_length] at htyped
        obtain rfl := Option.some.inj htyped
        obtain ⟨reply, hreturns⟩ := exists_returns hcoded hgives
        exact ⟨_, .returns waiting hremote rfl hreturns, rfl, Or.inr ⟨reply, s, rfl⟩⟩
      · rw [hcalls] at top
        cases top

/-- A request that a method waits for can return. -/
theorem Calling.Reached.returns (hread : ReadsMiscInfo readMiscInfo f)
    (h : c.Reached coding f program handle m)
    (writable : ∀ earlier req refNo, ((program.answer earlier req).message refNo).lines.Nonempty)
    {s : σ} {req : ρ} {resume : Except Exn (ν req) → σ → Suspended σ ρ ν Exn α}
    (waiting : c.method = .waiting s req resume) :
    ∃ d reply t, Run (CallStep coding handle readMiscInfo program) (fun _ _ => True) c d ∧
      d.Reached coding f program handle m ∧ d.method = .running (resume reply t) := by
  have hgoal : ∃ d, Run (CallStep coding handle readMiscInfo program) (fun _ _ => True) c d ∧
      (d.Reached coding f program handle m ∧ ((∃ s, d.method = .waiting s req resume) ∨
        ∃ reply t, d.method = .running (resume reply t))) ∧
      ∃ reply t, d.method = .running (resume reply t) := by
    refine Run.exists_goal (fun d => d.remote.distance) ?_ ⟨h, Or.inl ⟨s, waiting⟩⟩
    rintro u ⟨hu, hmethod⟩ hgoing
    obtain ⟨s, hwaiting⟩ := hmethod.resolve_right hgoing
    by_cases hbusy : u.remote.handled.length < u.remote.requests.length ∨
        u.remote.unanswered.Nonempty
    · obtain ⟨a, remote, hstep, hserver, -, hless⟩ := hu.1.server_progress hread writable hbusy
      have hnext : CallStep coding handle readMiscInfo program u a _ := .server hstep hserver
      exact ⟨a, _, trivial, hnext, ⟨hu.step hread hnext, Or.inl ⟨s, hwaiting⟩⟩, hless⟩
    · rw [not_or, Finset.not_nonempty_iff_eq_empty] at hbusy
      have hstack : u.remote.nest.stack ≠ [] := by
        have hfollows := hu.2
        rw [hwaiting] at hfollows
        obtain ⟨earlier, typed, -, -, -, -, -, -, hcalls | ⟨msg, hcalls⟩⟩ := hfollows
        · simp [hcalls]
        · simp [hcalls]
      obtain ⟨b, remote, hstep, -, hless⟩ := hu.1.client_progress hstack hbusy.2
      obtain ⟨v, hnext, rfl, hv⟩ := CallStep.of_client hread hu.1 hu.2 hwaiting hstep
      exact ⟨.client b, v, trivial, hnext, ⟨hu.step hread hnext, hv⟩, hless⟩
  obtain ⟨d, hrun, ⟨hd, -⟩, reply, t, hmethod⟩ := hgoal
  exact ⟨d, reply, t, hrun, hd, hmethod⟩

/-- A method that is running can come to its end. The induction is on what it still does. -/
theorem Calling.Reached.ends (hread : ReadsMiscInfo readMiscInfo f)
    (writable : ∀ earlier req refNo, ((program.answer earlier req).message refNo).lines.Nonempty)
    (sendable : ∀ {s req resume w},
      m.Comes (coding.Serves f program handle) [] (.await s req resume) w →
        ∃ typed, coding.typed req = some typed ∧ typed.Sendable)
    {method : Suspended σ ρ ν Exn α} (h : c.Reached coding f program handle m)
    (running : c.method = .running method) :
    ∃ d result t, Run (CallStep coding handle readMiscInfo program) (fun _ _ => True) c d ∧
      d.method = .running (.done result t) := by
  induction method generalizing c with
  | done result s => exact ⟨c, result, s, Run.refl, running⟩
  | await s req resume ih =>
    have hfollows := h.2
    rw [running] at hfollows
    obtain ⟨hidle, hcomes⟩ := hfollows
    obtain ⟨typed, coded, hsend⟩ := sendable hcomes
    have hfirst : CallStep coding handle readMiscInfo program c (.request typed) _ :=
      .request running hidle coded (.request hsend (.program _ h.1.running hidle))
    obtain ⟨u, reply, t, hrun, hu, hmethod⟩ := (h.step hread hfirst).returns hread writable rfl
    obtain ⟨d, result, t, hrest, hdone⟩ := ih reply t hu hmethod
    exact ⟨d, result, t, (hrun.head trivial hfirst).trans hrest, hdone⟩

/-- From every state that can be reached the end can be reached. -/
theorem Calling.Reached.progress (hread : ReadsMiscInfo readMiscInfo f)
    (h : c.Reached coding f program handle m)
    (writable : ∀ earlier req refNo, ((program.answer earlier req).message refNo).lines.Nonempty)
    (sendable : ∀ {s req resume w},
      m.Comes (coding.Serves f program handle) [] (.await s req resume) w →
        ∃ typed, coding.typed req = some typed ∧ typed.Sendable) :
    ∃ d result t, Run (CallStep coding handle readMiscInfo program) (fun _ _ => True) c d ∧
      d.method = .running (.done result t) := by
  cases hmethod : c.method with
  | running method => exact h.ends hread writable sendable hmethod
  | waiting s req resume =>
    obtain ⟨u, reply, t, hrun, hu, hrunning⟩ := h.returns hread writable hmethod
    obtain ⟨d, result, t, hrest, hdone⟩ := hu.ends hread writable sendable hrunning
    exact ⟨d, result, t, hrun.trans hrest, hdone⟩

/-- **No method hangs.** From every state of every run, a method can come to its end, if the
requests that it comes to can be sent. -/
theorem Run.methodEnds_progress (hread : ReadsMiscInfo readMiscInfo f)
    (h : Run (CallStep coding handle readMiscInfo program) (fun _ _ => True) (.start m) c)
    (writable : ∀ earlier req refNo, ((program.answer earlier req).message refNo).lines.Nonempty)
    (sendable : ∀ {s req resume w},
      m.Comes (coding.Serves f program handle) [] (.await s req resume) w →
        ∃ typed, coding.typed req = some typed ∧ typed.Sendable) :
    ∃ d result t, Run (CallStep coding handle readMiscInfo program) (fun _ _ => True) c d ∧
      d.method = .running (.done result t) :=
  (h.reached hread).progress hread writable sendable

end Steps

/-- Requests that get what the client returns. -/
def Coding.plain : Coding TypedRequest fun _ => OkReply where
  typed := some
  reply _ okReply := okReply
  exists_value _ _ := ⟨_, rfl⟩

/-- A text is created, and then another one; the messages that come are kept. -/
def createTwice : Suspended (List AsyncMessage) TypedRequest (fun _ => OkReply) Exn OkReply :=
  (do
    let _ ← Coroutine.request sampleRequest
    Coroutine.request sampleRequest) []

/-- Both requests can be sent. -/
theorem createTwice_sendable {serves} {s : List AsyncMessage} {req : TypedRequest}
    {resume : Except Exn OkReply → List AsyncMessage → Suspended _ _ (fun _ => OkReply) _ _}
    {w : List (ReadRequest CookedMiscInfo)}
    (h : createTwice.Comes serves [] (.await s req resume) w) :
    ∃ typed, Coding.plain.typed req = some typed ∧ typed.Sendable := by
  refine ⟨req, rfl, ?_⟩
  cases h with
  | refl => exact sampleRequest_sendable
  | @served _ _ _ _ _ reply _ _ _ hcomes =>
    cases reply with
    | ok value =>
      cases hcomes with
      | refl => exact sampleRequest_sendable
      | served _ hcomes => nomatch hcomes
    | error e => nomatch hcomes

/-- A method that ends so has created two texts. -/
theorem createTwice_ends {handle : List AsyncMessage → AsyncMessage → List AsyncMessage}
    {result : Except Exn OkReply} {t : List AsyncMessage × List (ReadRequest CookedMiscInfo)}
    (h : createTwice.Ends (Coding.plain.Serves CookedMiscInfo.sent textCreator handle) []
      result t) :
    result = .ok (.textNo 2) ∧ t.2.length = 2 := by
  obtain ⟨first, s, ⟨typed, htyped, hs, hfirst, -⟩, hrest⟩ := h
  obtain rfl := Option.some.inj htyped
  have hread : first = .ok (.textNo 1) := by
    cases first with
    | ok value => exact hfirst
    | error e => nomatch hfirst
  subst hread
  obtain ⟨second, u, ⟨typed, htyped, hu, hsecond, -⟩, rfl, rfl⟩ := hrest
  obtain rfl := Option.some.inj htyped
  rw [hs] at hu hsecond
  refine ⟨?_, congrArg List.length hu⟩
  cases result with
  | ok value => exact hsecond
  | error e => nomatch hsecond

theorem Run.methodEnds_progress_sample :
    ∃ c result msgs, Run (CallStep Coding.plain (fun msgs msg => msgs ++ [msg])
        CookedMiscInfo.parse textCreator) (fun _ _ => True) (.start createTwice) c ∧
      c.method = .running (.done result msgs) :=
  Run.methodEnds_progress (fun _ hinfo => hinfo.parse_reads) .refl textCreator_writable
    createTwice_sendable

theorem Run.methodEnds_sample :
    ∃ (c : Calling (List AsyncMessage) TypedRequest (fun _ => OkReply) OkReply CookedMiscInfo)
        (msgs : List AsyncMessage),
      c.method = .running (.done (.ok (.textNo 2)) msgs) ∧ c.remote.handled.length = 2 ∧
      createTwice.Ends (Coding.plain.Serves CookedMiscInfo.sent textCreator
        fun msgs msg => msgs ++ [msg]) [] (.ok (.textNo 2)) (msgs, c.remote.handled) := by
  have hread : ReadsMiscInfo CookedMiscInfo.parse CookedMiscInfo.sent :=
    fun _ hinfo => hinfo.parse_reads
  have hstart : (Calling.start createTwice).Reached Coding.plain CookedMiscInfo.sent textCreator
      (fun msgs msg => msgs ++ [msg]) createTwice := Run.refl.reached hread
  obtain ⟨c, result, msgs, hrun, hdone⟩ :=
    hstart.progress hread textCreator_writable createTwice_sendable
  have hends := Run.methodEnds hread hrun hdone
  obtain ⟨rfl, hhandled⟩ := createTwice_ends hends
  exact ⟨c, msgs, hdone, hhandled, hends⟩

end Pylyskom
