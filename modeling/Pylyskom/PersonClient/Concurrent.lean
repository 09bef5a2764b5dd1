import Pylyskom.PersonClient.Fresh
import Pylyskom.Coroutine.TaskPool

/-!
# Calls that overlap

`change_conference` reads the current conference before it waits, and invalidates the
membership of that conference after it has waited. Of two calls that overlap the second may
so remember another conference than the one that the server leaves when it serves it.
-/

namespace Pylyskom

/-- The tasks that share a person client. -/
abbrev PersonPool :=
  TaskPool CachingPersonClient MembershipServer PersonRequest PersonRequest.Reply Exn
    (List Membership)

abbrev WaitingCall :=
  WaitingTask CachingPersonClient PersonRequest PersonRequest.Reply Exn (List Membership)

abbrev RepliedCall :=
  RepliedTask CachingPersonClient PersonRequest PersonRequest.Reply Exn (List Membership)

/-- The server refuses a request with an error and does nothing, or answers it. -/
def MembershipServer.Serves (persNo : ℕ) (refused : Bool) (req : PersonRequest)
    (server : MembershipServer) (reply : Except Exn req.Reply) (server' : MembershipServer) :
    Prop :=
  match reply with
  | .ok value => refused = false ∧ answers persNo req server value server'
  | .error e => refused = true ∧ server' = server ∧ ∃ error, e = .serverError error

/-- What happens next among the tasks of one person. -/
abbrev PersonPool.Step (persNo : ℕ) :
    PersonPool → TaskAction PersonCall → PersonPool → Prop :=
  TaskPool.Step PersonCall.body (MembershipServer.Serves persNo)

/-- The memberships that a reply brings. -/
def PersonRequest.brings : (req : PersonRequest) → Except Exn req.Reply → List Membership
  | .getMembership11 .., .ok memberships => memberships
  | .queryReadTexts11 .., .ok membership => [membership]
  | _, _ => []

namespace RepliedTask

/-- The memberships that are to be stored. -/
def brings (task : RepliedCall) : List Membership := task.request.brings task.reply

/-- The membership of this conference is to be invalidated: the call of `change_conference`
remembers the conference. -/
def Invalidates (task : RepliedCall) (confNo : ℕ) : Prop :=
  confNo ≠ 0 ∧ task.start.currentConferenceNo = confNo ∧
    (∃ next, task.request = .changeConference next) ∧ ∃ value, task.reply = .ok value

/-- Every membership with a property that is on its way is followed by a reply with which
it is invalidated. -/
def Followed (P : Membership → Prop) : List RepliedCall → Prop
  | [] => True
  | task :: later =>
    (∀ m ∈ task.brings, P m → ∃ next ∈ later, next.Invalidates m.conference) ∧ Followed P later

end RepliedTask

namespace PersonPool

/-- Every membership with a property that is cached or on its way is followed by a reply
with which it is invalidated. -/
structure Followed (pool : PersonPool) (P : Membership → Prop) : Prop where
  caches : pool.state.Caches
    (fun _ m => P m → ∃ task ∈ pool.served, task.Invalidates m.conference)
    (fun _ m => P m → ∃ task ∈ pool.served, task.Invalidates m.conference)
  served : RepliedTask.Followed P pool.served

end PersonPool

/-- The tasks call methods for one person. -/
def TaskAction.Plain (persNo : ℕ) : TaskAction PersonCall → Prop
  | start call => call.Plain persNo
  | _ => True

/-- If the server carries out a change of conference, then the call remembers the conference
that the server leaves, or what is cached or on its way of that conference's membership is
followed by a reply with which it is invalidated. And no task invalidates a membership before
a task whose reply came earlier stores it, as when the tasks resume in the order of their
replies. -/
def TaskAction.Chained (pool : PersonPool) : TaskAction PersonCall → Prop
  | serve false => ∀ task sent confNo, pool.sent = task :: sent →
    task.request = .changeConference confNo → pool.world.workingConference ≠ 0 →
    task.start.currentConferenceNo = pool.world.workingConference ∨
      pool.Followed fun m => m.conference = pool.world.workingConference
  | resume i => ∀ before task after, pool.ready = before ++ task :: after → before.length = i →
    ∀ earlier ∈ before, ∀ m ∈ earlier.brings, ¬ task.Invalidates m.conference
  | _ => True

/-- A call that waits, and how it finishes. -/
inductive PersonTask (persNo : ℕ) : WaitingCall → Prop
  | change (start : CachingPersonClient) (confNo : ℕ) :
      PersonTask persNo (.once start (.changeConference confNo) fun _ t =>
        ([], PersonCall.changed start.currentConferenceNo confNo t))
  | fetch (start : CachingPersonClient) (confNo : ℕ) :
      PersonTask persNo (.once start (.queryReadTexts11 persNo confNo 0 0) fun membership t =>
        ([membership], PersonCall.stored confNo membership t))
  | window (start : CachingPersonClient) (first noOfConfs : ℕ) :
      PersonTask persNo (.once start (.getMembership11 persNo first noOfConfs 0 0)
        fun memberships t => (memberships, t.updateCachedMembershipsByPosition memberships))

/-- A membership is that of a conference in the list, at its position. -/
def MembershipServer.Lists (server : MembershipServer) (m : Membership) : Prop :=
  ∃ n ∈ server.memberships, n.conference = m.conference ∧ n.position = m.position

/-- A membership is the one that is asked for. -/
def PersonRequest.Fits : PersonRequest → Membership → Prop
  | .queryReadTexts11 _ conference _ _, m => m.conference = conference
  | _, _ => True

/-- A call changes nothing that is cached before it waits. -/
def CachingPersonClient.KeepsCaches (s t : CachingPersonClient) : Prop :=
  t.persNo = s.persNo ∧ ∀ P Q, s.Caches P Q → t.Caches P Q

theorem PersonCall.Plain.cases {persNo : ℕ} {call : PersonCall} {s : CachingPersonClient}
    (hplain : call.Plain persNo) (hpersNo : s.persNo = persNo) :
    (∃ result t, call.body s = .done result t ∧ s.KeepsCaches t) ∨
      ∃ t req finish, call.body s = .once t req finish ∧ s.KeepsCaches t ∧
        PersonTask persNo (.once s req finish) := by
  subst hpersNo
  cases call with
  | login | logout => cases hplain
  | changeConference confNo =>
    right
    exact ⟨s, _, _, PersonCall.body_changeConference s confNo, ⟨rfl, fun _ _ h => h⟩,
      .change s confNo⟩
  | getMemberships p first noOfConfs wantReadRanges =>
    obtain ⟨rfl, rfl⟩ := hplain
    rw [PersonCall.body_getMemberships_own]
    cases s.getCachedMembershipsByPosition first noOfConfs with
    | some ms => exact Or.inl ⟨_, s, rfl, rfl, fun _ _ h => h⟩
    | none => exact Or.inr ⟨s, _, _, rfl, ⟨rfl, fun _ _ h => h⟩, .window s first noOfConfs⟩
  | getMembership p confNo wantReadRanges =>
    obtain ⟨rfl, rfl⟩ := hplain
    rw [PersonCall.body_getMembership_own]
    cases s.memberships.dict.get? confNo with
    | some m => exact Or.inl ⟨_, _, rfl, rfl, fun _ _ h => h.hit⟩
    | none =>
      exact Or.inr ⟨_, _, _, rfl, ⟨rfl, fun _ _ h => h.missed⟩, .fetch s confNo⟩

/-- What is cached when a task has finished: what was cached that it does not invalidate,
and what its reply brings. -/
structure RepliedTask.Finishes (task : RepliedCall) (s t : CachingPersonClient) : Prop where
  persNo_eq : t.persNo = s.persNo
  caches : t.Caches
    (fun c m => s.memberships.dict.get? c = some m ∧ ¬ task.Invalidates m.conference ∨
      m ∈ task.brings ∧ m.conference = c)
    (fun i m => s.membershipsByPosition.get? i = some m ∧ ¬ task.Invalidates m.conference ∨
      m ∈ task.brings ∧ m.position = i)

section

variable {persNo : ℕ} {s : CachingPersonClient} {server server' : MembershipServer}

theorem finishes_of_not_invalidates {task : RepliedCall} (hnot : ∀ c, ¬ task.Invalidates c) :
    s.Caches
      (fun c m => s.memberships.dict.get? c = some m ∧ ¬ task.Invalidates m.conference ∨
        m ∈ task.brings ∧ m.conference = c)
      (fun i m => s.membershipsByPosition.get? i = some m ∧ ¬ task.Invalidates m.conference ∨
        m ∈ task.brings ∧ m.position = i) :=
  ⟨fun hm => Or.inl ⟨hm, hnot _⟩, fun hm => Or.inl ⟨hm, hnot _⟩⟩

/-- Conferences and positions belong together in the cache by position. -/
theorem position_unique (hserver : server.WellFormed) {P : ℕ → Membership → Prop}
    (hcaches : s.Caches P (fun i m => m.position = i ∧ server.Lists m)) {i j : ℕ}
    {m n : Membership} (hm : s.membershipsByPosition.get? i = some m)
    (hn : s.membershipsByPosition.get? j = some n) (hconf : m.conference = n.conference) :
    i = j := by
  obtain ⟨rfl, m', hm', hmconf, hmposition⟩ := hcaches.byPosition hm
  obtain ⟨rfl, n', hn', hnconf, hnposition⟩ := hcaches.byPosition hn
  have hsame : m'.conference = n'.conference := by rw [hmconf, hconf, hnconf]
  rw [← hmposition, ← hnposition, hserver.unique hm' hn' hsame]

/-- **What a task does when its reply comes.** -/
theorem PersonTask.finishes {task : RepliedCall} (h : PersonTask persNo task.toWaitingTask)
    (hfits : ∀ m ∈ task.brings, task.request.Fits m) (hserver : server.WellFormed)
    (hcaches : s.Caches (fun c m => m.conference = c ∧ server.Lists m)
      (fun i m => m.position = i ∧ server.Lists m)) :
    ∃ result t, task.resume task.reply s = .done result t ∧ task.Finishes s t := by
  obtain ⟨⟨start, req, resume⟩, reply⟩ := task
  cases h with
  | change _ confNo =>
    cases reply with
    | error e =>
      refine ⟨_, s, rfl, rfl, finishes_of_not_invalidates ?_⟩
      rintro c ⟨-, -, -, _, ⟨⟩⟩
    | ok value =>
      refine ⟨_, _, rfl, CachingPersonClient.persNo_changed _ _, ?_, ?_⟩
      · intro c m hm
        obtain ⟨hm, hne⟩ := CachingPersonClient.memberships_of_changed hm
        refine Or.inl ⟨hm, ?_⟩
        rintro ⟨hzero, hprev, -⟩
        rw [(hcaches.memberships hm).1] at hzero hprev
        exact hne (hprev ▸ hzero) hprev.symm
      · intro i m hm
        obtain ⟨hm, hne⟩ := CachingPersonClient.byPosition_of_changed
          (position_unique hserver hcaches) hm
        refine Or.inl ⟨hm, ?_⟩
        rintro ⟨hzero, hprev, -⟩
        exact hne (hprev ▸ hzero) hprev.symm
  | fetch _ confNo =>
    have hnot : ∀ c, ¬ RepliedTask.Invalidates ⟨_, reply⟩ c := by
      rintro c ⟨-, -, ⟨_, ⟨⟩⟩, -⟩
    cases reply with
    | error e => exact ⟨_, s, rfl, rfl, finishes_of_not_invalidates hnot⟩
    | ok membership =>
      refine ⟨_, _, rfl, rfl, (finishes_of_not_invalidates hnot).stored (Or.inr ?_)⟩
      exact ⟨List.mem_singleton_self _, hfits _ (List.mem_singleton_self _)⟩
  | window _ first noOfConfs =>
    have hnot : ∀ c, ¬ RepliedTask.Invalidates ⟨_, reply⟩ c := by
      rintro c ⟨-, -, ⟨_, ⟨⟩⟩, -⟩
    cases reply with
    | error e => exact ⟨_, s, rfl, rfl, finishes_of_not_invalidates hnot⟩
    | ok memberships =>
      refine ⟨_, _, rfl, rfl, (finishes_of_not_invalidates hnot).update fun m hm => ?_⟩
      exact Or.inr ⟨hm, rfl⟩

/-- What the server does when it serves a request: it brings what it holds, and changes the
membership of the conference that it leaves. -/
structure MembershipServer.ServesAs (server server' : MembershipServer) (task : RepliedCall)
    (refused : Bool) : Prop where
  wellFormed : server'.WellFormed
  lists : ∀ m, server.Lists m → server'.Lists m
  brings : ∀ m ∈ task.brings, m ∈ server'.memberships ∧ task.request.Fits m
  changes : ∀ m ∈ server.memberships, m ∉ server'.memberships →
    refused = false ∧ server.workingConference ≠ 0 ∧ m.conference = server.workingConference ∧
      (∃ next, task.request = .changeConference next) ∧ ∃ value, task.reply = .ok value

theorem MembershipServer.lists_changeConference {m : Membership} (h : server.Lists m)
    (confNo : ℕ) (now : Time) : (server.changeConference confNo now).Lists m := by
  obtain ⟨n, hn, hconf, hposition⟩ := h
  refine ⟨_, List.mem_map_of_mem hn, ?_, ?_⟩
  · split <;> exact hconf
  · split <;> exact hposition

theorem PersonTask.servesAs {task : RepliedCall} (h : PersonTask persNo task.toWaitingTask)
    (hserver : server.WellFormed) {refused : Bool}
    (hserves : MembershipServer.Serves persNo refused task.request server task.reply server') :
    server.ServesAs server' task refused := by
  have hsame : server' = server →
      (∀ m ∈ task.brings, m ∈ server.memberships ∧ task.request.Fits m) →
      server.ServesAs server' task refused := by
    rintro rfl hbrings
    exact ⟨hserver, fun _ hm => hm, hbrings, fun m hm hnot => absurd hm hnot⟩
  obtain ⟨⟨start, req, resume⟩, reply⟩ := task
  cases h with
  | change _ confNo =>
    cases reply with
    | error e =>
      apply hsame hserves.2.1
      rintro m ⟨⟩
    | ok value =>
      obtain ⟨hrefused, now, rfl⟩ := hserves
      refine ⟨hserver.changeConference confNo now,
        fun _ hm => MembershipServer.lists_changeConference hm confNo now, ?_, ?_⟩
      · rintro m ⟨⟩
      · intro m hm hnot
        have hleft : server.workingConference ≠ 0 ∧ m.conference = server.workingConference := by
          by_contra hother
          apply hnot
          exact MembershipServer.mem_changeConference hm fun hzero hconf => hother ⟨hzero, hconf⟩
        exact ⟨hrefused, hleft.1, hleft.2, ⟨confNo, rfl⟩, value, rfl⟩
  | fetch _ confNo =>
    cases reply with
    | error e =>
      apply hsame hserves.2.1
      rintro m ⟨⟩
    | ok membership =>
      obtain ⟨-, -, hserver', hmem, hconf⟩ := hserves
      apply hsame hserver'
      intro m hm
      obtain rfl := List.mem_singleton.mp hm
      exact ⟨hmem, hconf⟩
  | window _ first noOfConfs =>
    cases reply with
    | error e =>
      apply hsame hserves.2.1
      rintro m ⟨⟩
    | ok memberships =>
      obtain ⟨-, -, hserver', hmemberships⟩ := hserves
      apply hsame hserver'
      intro m hm
      have hm : m ∈ memberships := hm
      rw [hmemberships] at hm
      exact ⟨List.mem_of_mem_drop (List.mem_of_mem_take hm), trivial⟩

end

namespace RepliedTask

variable {P P' : Membership → Prop} {replied : List RepliedCall}

/-- One more reply comes after those that are on their way. -/
theorem Followed.append (h : Followed P replied) {task : RepliedCall}
    (hnew : ∀ m, P' m → P m ∨ task.Invalidates m.conference)
    (hbrings : ∀ m ∈ task.brings, ¬ P' m) : Followed P' (replied ++ [task]) := by
  induction replied with
  | nil => exact ⟨fun m hm hP => absurd hP (hbrings m hm), trivial⟩
  | cons first replied ih =>
    refine ⟨fun m hm hP => ?_, ih h.2⟩
    rcases hnew m hP with hP | hinvalidates
    · obtain ⟨next, hnext, hinvalidates⟩ := h.1 m hm hP
      exact ⟨next, List.mem_append_left _ hnext, hinvalidates⟩
    · exact ⟨task, List.mem_append_right _ (List.mem_singleton_self task), hinvalidates⟩

/-- A task resumes that invalidates nothing that is to be stored before. -/
theorem Followed.remove {before after : List RepliedCall} {task : RepliedCall}
    (h : Followed P (before ++ task :: after))
    (hnot : ∀ earlier ∈ before, ∀ m ∈ earlier.brings, ¬ task.Invalidates m.conference) :
    Followed P (before ++ after) := by
  induction before with
  | nil => exact h.2
  | cons first before ih =>
    refine ⟨fun m hm hP => ?_, ih h.2 fun earlier hearlier => ?_⟩
    · obtain ⟨next, hnext, hinvalidates⟩ := h.1 m hm hP
      have hne : next ≠ task := by
        rintro rfl
        exact hnot first List.mem_cons_self m hm hinvalidates
      exact ⟨next, mem_of_mem_append_cons hnext hne, hinvalidates⟩
    · exact hnot earlier (List.mem_cons_of_mem _ hearlier)

/-- A task is followed as it was, whatever comes before it. -/
theorem Followed.brings {before after : List RepliedCall} {task : RepliedCall}
    (h : Followed P (before ++ task :: after)) {m : Membership} (hm : m ∈ task.brings)
    (hP : P m) : ∃ next ∈ after, next.Invalidates m.conference := by
  induction before with
  | nil => exact h.1 m hm hP
  | cons first before ih => exact ih h.2

theorem Followed.or (h : Followed P replied) (h' : Followed P' replied) :
    Followed (fun m => P m ∨ P' m) replied := by
  induction replied with
  | nil => trivial
  | cons first replied ih =>
    refine ⟨fun m hm hP => ?_, ih h.2 h'.2⟩
    rcases hP with hP | hP
    · exact h.1 m hm hP
    · exact h'.1 m hm hP

end RepliedTask

namespace PersonPool

/-- What holds of a pool of tasks if every change of conference is chained. -/
structure Kept (persNo : ℕ) (pool : PersonPool) : Prop where
  wellFormed : pool.world.WellFormed
  persNo_eq : pool.state.persNo = persNo
  unsent : ∀ task ∈ pool.unsent, PersonTask persNo task
  sent : ∀ task ∈ pool.sent, PersonTask persNo task
  served : ∀ task ∈ pool.served, PersonTask persNo task.toWaitingTask
  brings : ∀ task ∈ pool.served, ∀ m ∈ task.brings, pool.world.Lists m ∧ task.request.Fits m
  caches : pool.state.Caches (fun c m => m.conference = c ∧ pool.world.Lists m)
    (fun i m => m.position = i ∧ pool.world.Lists m)
  /-- What is not current will be invalidated. -/
  followed : pool.Followed fun m => m ∉ pool.world.memberships

namespace Followed

variable {pool : PersonPool} {P P' : Membership → Prop} {task : RepliedCall}

theorem or (h : pool.Followed P) (h' : pool.Followed P') :
    pool.Followed fun m => P m ∨ P' m := by
  refine ⟨⟨fun hm hP => ?_, fun hm hP => ?_⟩, h.served.or h'.served⟩
  · exact hP.elim (h.caches.memberships hm) (h'.caches.memberships hm)
  · exact hP.elim (h.caches.byPosition hm) (h'.caches.byPosition hm)

/-- A request is served. -/
theorem serve (h : pool.Followed P) (world : MembershipServer) (sent : List WaitingCall)
    (hnew : ∀ m, P' m → P m ∨ task.Invalidates m.conference)
    (hbrings : ∀ m ∈ task.brings, ¬ P' m) :
    PersonPool.Followed { pool with world, sent, replied := pool.replied ++ [task] } P' := by
  have hserved : TaskPool.served { pool with world, sent, replied := pool.replied ++ [task] } =
      pool.served ++ [task] := (List.append_assoc _ _ _).symm
  have hlater : ∀ m, (P m → ∃ next ∈ pool.served, next.Invalidates m.conference) → P' m →
      ∃ next ∈ pool.served ++ [task], next.Invalidates m.conference := by
    intro m hfollowed hP
    rcases hnew m hP with hP | hinvalidates
    · obtain ⟨next, hnext, hinvalidates⟩ := hfollowed hP
      exact ⟨next, List.mem_append_left _ hnext, hinvalidates⟩
    · exact ⟨task, List.mem_append_right _ (List.mem_singleton_self task), hinvalidates⟩
  constructor
  · rw [hserved]
    exact h.caches.imp (fun _ m => hlater m) fun _ m => hlater m
  · rw [hserved]
    exact h.served.append hnew hbrings

/-- A task finishes. -/
theorem resume (h : pool.Followed P) {before after : List RepliedCall} {t : CachingPersonClient}
    (hready : pool.ready = before ++ task :: after)
    (hnot : ∀ earlier ∈ before, ∀ m ∈ earlier.brings, ¬ task.Invalidates m.conference)
    (hfinishes : task.Finishes pool.state t) :
    PersonPool.Followed { pool with state := t, ready := before ++ after } P := by
  have hbefore : pool.served = before ++ task :: (after ++ pool.replied) := by
    rw [TaskPool.served, hready, List.append_assoc, List.cons_append]
  have hafter : TaskPool.served { pool with state := t, ready := before ++ after } =
      before ++ (after ++ pool.replied) := List.append_assoc _ _ _
  obtain ⟨hcaches, hserved⟩ := h
  rw [hbefore] at hcaches hserved
  have hrest : ∀ m, (P m → ∃ next ∈ before ++ task :: (after ++ pool.replied),
      next.Invalidates m.conference) → ¬ task.Invalidates m.conference → P m →
      ∃ next ∈ before ++ (after ++ pool.replied), next.Invalidates m.conference := by
    intro m hfollowed hnot hP
    obtain ⟨next, hnext, hinvalidates⟩ := hfollowed hP
    have hne : next ≠ task := by
      rintro rfl
      exact hnot hinvalidates
    exact ⟨next, mem_of_mem_append_cons hnext hne, hinvalidates⟩
  have hbrings : ∀ m ∈ task.brings, P m →
      ∃ next ∈ before ++ (after ++ pool.replied), next.Invalidates m.conference := by
    intro m hm hP
    obtain ⟨next, hnext, hinvalidates⟩ := hserved.brings hm hP
    exact ⟨next, List.mem_append_right _ hnext, hinvalidates⟩
  constructor
  · rw [hafter]
    refine hfinishes.caches.imp ?_ ?_
    · rintro c m (⟨hm, hkept⟩ | ⟨hm, -⟩)
      · exact hrest m (hcaches.memberships hm) hkept
      · exact hbrings m hm
    · rintro i m (⟨hm, hkept⟩ | ⟨hm, -⟩)
      · exact hrest m (hcaches.byPosition hm) hkept
      · exact hbrings m hm
  · rw [hafter]
    exact hserved.remove hnot

end Followed

namespace Kept

variable {persNo : ℕ} {pool : PersonPool}

theorem start (h : pool.Kept persNo) {call : PersonCall} (hplain : call.Plain persNo) :
    Kept persNo (pool.proceed pool.state (call.body pool.state)) := by
  rcases hplain.cases h.persNo_eq with ⟨result, t, hbody, hpersNo, hcaches⟩ |
    ⟨t, req, finish, hbody, ⟨hpersNo, hcaches⟩, htask⟩
  · rw [hbody]
    exact ⟨h.wellFormed, hpersNo.trans h.persNo_eq, h.unsent, h.sent, h.served, h.brings,
      hcaches _ _ h.caches, hcaches _ _ h.followed.caches, h.followed.served⟩
  · rw [hbody, TaskPool.proceed_once]
    refine ⟨h.wellFormed, hpersNo.trans h.persNo_eq, ?_, h.sent, h.served, h.brings,
      hcaches _ _ h.caches, hcaches _ _ h.followed.caches, h.followed.served⟩
    intro task hmem
    rcases List.mem_append.mp hmem with hmem | hmem
    · exact h.unsent task hmem
    · exact List.mem_singleton.mp hmem ▸ htask

theorem send (h : pool.Kept persNo) {before after : List WaitingCall} {task : WaitingCall}
    (hunsent : pool.unsent = before ++ task :: after) :
    Kept persNo { pool with unsent := before ++ after, sent := pool.sent ++ [task] } := by
  have hmem : ∀ other ∈ before ++ task :: after, PersonTask persNo other := by
    rw [← hunsent]
    exact h.unsent
  refine ⟨h.wellFormed, h.persNo_eq, ?_, ?_, h.served, h.brings, h.caches, h.followed.caches,
    h.followed.served⟩
  · exact fun other hother => hmem other (mem_append_cons_of_mem_append hother)
  · intro other hother
    rcases List.mem_append.mp hother with hother | hother
    · exact h.sent other hother
    · rw [List.mem_singleton.mp hother]
      exact hmem task (List.mem_append_right _ List.mem_cons_self)

/-- **A change of conference that is chained leaves nothing that stays stale.** -/
theorem serve (h : pool.Kept persNo) {task : WaitingCall} {sent : List WaitingCall}
    {refused : Bool} {reply : Except Exn task.request.Reply} {world : MembershipServer}
    (hsent : pool.sent = task :: sent)
    (hserves : MembershipServer.Serves persNo refused task.request pool.world reply world)
    (hchained : (TaskAction.serve refused).Chained pool) :
    Kept persNo { pool with world, sent, replied := pool.replied ++ [{ task with reply }] } := by
  have htask : PersonTask persNo task := h.sent task (hsent ▸ List.mem_cons_self)
  let served : RepliedCall := { task with reply }
  have hserved : pool.world.ServesAs world served refused := by
    have hcall : PersonTask persNo served.toWaitingTask := htask
    exact hcall.servesAs h.wellFormed hserves
  have hcases : ∀ other ∈ TaskPool.served
      { pool with world, sent, replied := pool.replied ++ [served] },
      other ∈ pool.served ∨ other = served := by
    intro other hother
    rw [TaskPool.served, ← List.append_assoc] at hother
    exact (List.mem_append.mp hother).imp_right List.mem_singleton.mp
  refine ⟨hserved.wellFormed, h.persNo_eq, h.unsent, ?_, ?_, ?_, ?_, ?_⟩
  · exact fun other hother => h.sent other (hsent ▸ List.mem_cons_of_mem _ hother)
  · intro other hother
    rcases hcases other hother with hother | rfl
    · exact h.served other hother
    · exact htask
  · intro other hother m hm
    rcases hcases other hother with hother | rfl
    · obtain ⟨hlists, hfits⟩ := h.brings other hother m hm
      exact ⟨hserved.lists m hlists, hfits⟩
    · obtain ⟨hmem, hfits⟩ := hserved.brings m hm
      exact ⟨⟨m, hmem, rfl, rfl⟩, hfits⟩
  · exact h.caches.imp (fun c m hm => ⟨hm.1, hserved.lists m hm.2⟩)
      fun i m hm => ⟨hm.1, hserved.lists m hm.2⟩
  · have hbrings : ∀ m ∈ served.brings, ¬ m ∉ world.memberships :=
      fun m hm hnot => hnot (hserved.brings m hm).1
    by_cases hchanges : ∃ m ∈ pool.world.memberships, m ∉ world.memberships
    · obtain ⟨m, hm, hnot⟩ := hchanges
      obtain ⟨rfl, hzero, -, ⟨next, hrequest⟩, hok⟩ := hserved.changes m hm hnot
      rcases hchained task sent next hsent hrequest hzero with hprev | hfollowed
      · refine h.followed.serve world sent (fun n hn => ?_) hbrings
        by_cases hold : n ∈ pool.world.memberships
        · obtain ⟨-, -, hconf, -, -⟩ := hserved.changes n hold hn
          right
          rw [hconf]
          exact ⟨hzero, hprev, ⟨next, hrequest⟩, hok⟩
        · exact Or.inl hold
      · refine (h.followed.or hfollowed).serve world sent (fun n hn => Or.inl ?_) hbrings
        by_cases hold : n ∈ pool.world.memberships
        · exact Or.inr (hserved.changes n hold hn).2.2.1
        · exact Or.inl hold
    · refine h.followed.serve world sent (fun n hn => Or.inl fun hold => ?_) hbrings
      exact hchanges ⟨n, hold, hn⟩

theorem deliver (h : pool.Kept persNo) {task : RepliedCall} {replied : List RepliedCall}
    (hreplied : pool.replied = task :: replied) :
    Kept persNo { pool with replied, ready := pool.ready ++ [task] } := by
  have hserved : TaskPool.served { pool with replied, ready := pool.ready ++ [task] } =
      pool.served := by
    rw [TaskPool.served, TaskPool.served, hreplied, List.append_assoc]
    rfl
  refine ⟨h.wellFormed, h.persNo_eq, h.unsent, h.sent, ?_, ?_, h.caches, ?_, ?_⟩
  · rw [hserved]
    exact h.served
  · rw [hserved]
    exact h.brings
  · rw [hserved]
    exact h.followed.caches
  · rw [hserved]
    exact h.followed.served

theorem resume (h : pool.Kept persNo) {before after : List RepliedCall} {task : RepliedCall}
    (hready : pool.ready = before ++ task :: after)
    (hnot : ∀ earlier ∈ before, ∀ m ∈ earlier.brings, ¬ task.Invalidates m.conference) :
    Kept persNo ({ pool with ready := before ++ after }.proceed task.start
      (task.resume task.reply pool.state)) := by
  have hmem : task ∈ pool.served := by
    rw [TaskPool.served, hready]
    exact List.mem_append_left _ (List.mem_append_right _ List.mem_cons_self)
  have hrest : ∀ other ∈ (before ++ after) ++ pool.replied, other ∈ pool.served := by
    intro other hother
    rw [TaskPool.served, hready]
    rcases List.mem_append.mp hother with hother | hother
    · exact List.mem_append_left _ (mem_append_cons_of_mem_append hother)
    · exact List.mem_append_right _ hother
  obtain ⟨result, t, hresume, hfinishes⟩ := (h.served task hmem).finishes
    (fun m hm => (h.brings task hmem m hm).2) h.wellFormed h.caches
  rw [hresume]
  refine ⟨h.wellFormed, hfinishes.persNo_eq.trans h.persNo_eq, h.unsent, h.sent,
    fun other hother => h.served other (hrest other hother),
    fun other hother => h.brings other (hrest other hother), ?_,
    h.followed.resume hready hnot hfinishes⟩
  refine hfinishes.caches.imp ?_ ?_
  · rintro c m (⟨hm, -⟩ | ⟨hm, hconf⟩)
    · exact h.caches.memberships hm
    · exact ⟨hconf, (h.brings task hmem m hm).1⟩
  · rintro i m (⟨hm, -⟩ | ⟨hm, hposition⟩)
    · exact h.caches.byPosition hm
    · exact ⟨hposition, (h.brings task hmem m hm).1⟩

end Kept

/-- **Each step keeps the invariant.** -/
theorem Kept.step {persNo : ℕ} {pool pool' : PersonPool} {a : TaskAction PersonCall}
    (h : pool.Kept persNo)
    (hstep : PersonPool.Step persNo pool a pool')
    (hplain : a.Plain persNo) (hchained : a.Chained pool) : pool'.Kept persNo := by
  cases hstep with
  | start call => exact h.start hplain
  | send hunsent => exact h.send hunsent
  | serve hsent hserves => exact h.serve hsent hserves hchained
  | deliver hreplied => exact h.deliver hreplied
  | resume hready => exact h.resume hready (hchained _ _ _ hready rfl)

/-- When no call is pending, what is cached is current. -/
theorem Kept.idle {persNo : ℕ} {pool : PersonPool} (h : pool.Kept persNo) (hidle : pool.Idle) :
    pool.state.Caches (fun c m => m ∈ pool.world.memberships ∧ m.conference = c)
      fun i m => pool.world.memberships[i]? = some m := by
  obtain ⟨-, -, hreplied, hready⟩ := hidle
  have hcurrent : ∀ m, (m ∉ pool.world.memberships →
      ∃ task ∈ pool.served, task.Invalidates m.conference) → m ∈ pool.world.memberships := by
    intro m hfollowed
    by_contra hnot
    obtain ⟨task, hmem, -⟩ := hfollowed hnot
    rw [TaskPool.served, hreplied, hready] at hmem
    cases hmem
  constructor
  · intro c m hm
    exact ⟨hcurrent m (h.followed.caches.memberships hm), (h.caches.memberships hm).1⟩
  · intro i m hm
    have hmem := hcurrent m (h.followed.caches.byPosition hm)
    obtain ⟨rfl, -⟩ := h.caches.byPosition hm
    obtain ⟨j, hj⟩ := List.mem_iff_getElem?.mp hmem
    rwa [h.wellFormed.position hj]

end PersonPool

/-- Tasks that resume in the order of their replies meet the condition. -/
theorem TaskAction.InOrder.chained_resume {pool : PersonPool} {i : ℕ}
    (h : (TaskAction.resume i : TaskAction PersonCall).InOrder) :
    (TaskAction.resume i).Chained pool := by
  obtain rfl : i = 0 := h
  intro before task after _ hlength earlier hearlier
  rw [List.length_eq_zero_iff.mp hlength] at hearlier
  cases hearlier

/-- **No stale membership is left** in every run in which each change of conference is
chained: whenever no call is pending, both caches hold what the server holds. -/
theorem Run.idleCurrent {persNo : ℕ} {server : MembershipServer} {pool : PersonPool}
    (wellFormed : server.WellFormed)
    (h : Run (PersonPool.Step persNo) (fun pool a => a.Plain persNo ∧ a.Chained pool)
      (.init { CachingPersonClient.init with persNo } server) pool) (hidle : pool.Idle) :
    pool.state.Caches (fun c m => m ∈ pool.world.memberships ∧ m.conference = c)
      fun i m => pool.world.memberships[i]? = some m := by
  have hkept : PersonPool.Kept persNo pool := by
    apply h.invariant (P := fun pool => PersonPool.Kept persNo pool)
    · refine ⟨wellFormed, rfl, ?_, ?_, ?_, ?_, .init persNo, .init persNo, trivial⟩
      · rintro task ⟨⟩
      · rintro task ⟨⟩
      · rintro task ⟨⟩
      · rintro task ⟨⟩
    · exact fun hallowed hstep hu => hu.step hstep hallowed.1 hallowed.2
  exact hkept.idle hidle

section

variable {P : PersonPool → Prop} {allowed : PersonPool → TaskAction PersonCall → Prop}
  {state s : CachingPersonClient} {world world' : MembershipServer} {call : PersonCall}
  {req : PersonRequest}
  {finish : req.Reply → CachingPersonClient → List Membership × CachingPersonClient}

/-- A call is started and its request is sent. -/
private theorem run_start {sent : List WaitingCall} (hbody : call.body state = .once s req finish)
    (hstart : ∀ pool, allowed pool (.start call) ∧ allowed pool .send)
    (h : ∃ pool, Run (PersonPool.Step 7) allowed
      ⟨s, world, [], sent ++ [.once state req finish], [], []⟩ pool ∧ P pool) :
    ∃ pool, Run (PersonPool.Step 7) allowed ⟨state, world, [], sent, [], []⟩ pool ∧ P pool := by
  have hproceed : TaskPool.proceed ⟨state, world, [], sent, [], []⟩ state (call.body state) =
      ⟨s, world, [.once state req finish], sent, [], []⟩ := by
    rw [hbody]
    rfl
  have hstep : PersonPool.Step 7 ⟨state, world, [], sent, [], []⟩ (.start call)
      ⟨s, world, [.once state req finish], sent, [], []⟩ := hproceed ▸ .start call
  let task : WaitingCall := .once state req finish
  have hunsent : [task] = [] ++ task :: [] := rfl
  exact Run.reach (hstart _).1 hstep (Run.reach (hstart _).2 (.send hunsent) h)

/-- The request of a call is served. -/
private theorem run_serve {value : req.Reply} {sent : List WaitingCall}
    {replied : List RepliedCall}
    (hserves : MembershipServer.Serves 7 false req world (.ok value) world')
    (hserve : allowed ⟨s, world, [], .once state req finish :: sent, replied, []⟩ (.serve false))
    (h : ∃ pool, Run (PersonPool.Step 7) allowed
      ⟨s, world', [], sent, replied ++ [⟨.once state req finish, .ok value⟩], []⟩ pool ∧
        P pool) :
    ∃ pool, Run (PersonPool.Step 7) allowed
      ⟨s, world, [], .once state req finish :: sent, replied, []⟩ pool ∧ P pool := by
  have hstep : PersonPool.Step 7 ⟨s, world, [], .once state req finish :: sent, replied, []⟩
      (.serve false)
      ⟨s, world', [], sent, replied ++ [⟨.once state req finish, .ok value⟩], []⟩ :=
    .serve rfl hserves
  exact Run.reach hserve hstep h

/-- The reply to a call is delivered, and the task resumes. -/
private theorem run_resume {value : req.Reply} {replied : List RepliedCall}
    (hresume : ∀ pool, allowed pool .deliver ∧ allowed pool (.resume 0))
    (h : ∃ pool, Run (PersonPool.Step 7) allowed
      ⟨(finish value s).2, world, [], [], replied, []⟩ pool ∧ P pool) :
    ∃ pool, Run (PersonPool.Step 7) allowed
      ⟨s, world, [], [], ⟨.once state req finish, .ok value⟩ :: replied, []⟩ pool ∧ P pool := by
  let task : RepliedCall := ⟨.once state req finish, .ok value⟩
  let pool : PersonPool := ⟨s, world, [], [], replied, [task]⟩
  have hdeliver : PersonPool.Step 7 ⟨s, world, [], [], task :: replied, []⟩ .deliver pool :=
    .deliver rfl
  have hready : pool.ready = [] ++ task :: [] := rfl
  have hstep : PersonPool.Step 7 pool (.resume 0)
      (TaskPool.proceed ⟨s, world, [], [], replied, []⟩ task.start
        (task.resume task.reply s)) := .resume hready
  exact Run.reach (hresume _).1 hdeliver (Run.reach (hresume _).2 hstep h)

/-- A call with no other going on. -/
private theorem run_alone {value : req.Reply} (hbody : call.body state = .once s req finish)
    (hserves : MembershipServer.Serves 7 false req world (.ok value) world')
    (hallowed : ∀ pool, (allowed pool (.start call) ∧ allowed pool .send) ∧
      allowed pool .deliver ∧ allowed pool (.resume 0))
    (hserve : allowed ⟨s, world, [], [.once state req finish], [], []⟩ (.serve false))
    (h : ∃ pool, Run (PersonPool.Step 7) allowed
      ⟨(finish value s).2, world', [], [], [], []⟩ pool ∧ P pool) :
    ∃ pool, Run (PersonPool.Step 7) allowed ⟨state, world, [], [], [], []⟩ pool ∧ P pool := by
  apply run_start hbody fun pool => (hallowed pool).1
  apply run_serve hserves hserve
  exact run_resume (fun pool => (hallowed pool).2) h

/-- The steps other than the start of a call and the service of its request. -/
private theorem chained_others (hplain : call.Plain 7) (pool : PersonPool) :
    ((TaskAction.Plain 7 (.start call) ∧ TaskAction.Chained pool (.start call)) ∧
      TaskAction.Plain 7 .send ∧ TaskAction.Chained pool .send) ∧
    (TaskAction.Plain 7 .deliver ∧ TaskAction.Chained pool .deliver) ∧
      TaskAction.Plain 7 (.resume 0) ∧ TaskAction.Chained pool (.resume 0) :=
  ⟨⟨⟨hplain, trivial⟩, trivial, trivial⟩, ⟨trivial, trivial⟩, trivial,
    TaskAction.InOrder.chained_resume rfl⟩

private theorem chained_of_remembers {pool : PersonPool} {task : WaitingCall}
    {sent : List WaitingCall} (hsent : pool.sent = task :: sent)
    (hremembers : pool.world.workingConference ≠ 0 →
      task.start.currentConferenceNo = pool.world.workingConference) :
    TaskAction.Plain 7 (.serve false) ∧ TaskAction.Chained pool (.serve false) := by
  refine ⟨trivial, ?_⟩
  intro other others confNo hothers _ hzero
  obtain ⟨rfl, rfl⟩ := List.cons.inj (hsent.symm.trans hothers)
  exact Or.inl (hremembers hzero)

private theorem serves_getMembership (hours working : ℕ) :
    MembershipServer.Serves 7 false (.queryReadTexts11 7 5 0 0)
      ⟨[membershipAt 0 5 hours], working⟩ (.ok (membershipAt 0 5 hours))
      ⟨[membershipAt 0 5 hours], working⟩ := by
  have hanswers : MembershipServer.answers 7 (.queryReadTexts11 7 5 0 0)
      ⟨[membershipAt 0 5 hours], working⟩ (membershipAt 0 5 hours)
      ⟨[membershipAt 0 5 hours], working⟩ := ⟨rfl, rfl, List.mem_singleton_self _, rfl⟩
  exact ⟨rfl, hanswers⟩

private theorem serves_changeConference (server : MembershipServer) (confNo : ℕ) :
    MembershipServer.Serves 7 false (.changeConference confNo) server (.ok ())
      (server.changeConference confNo ⟨0, 0, 13, 1, 4, 124, 6, 152, 0⟩) :=
  ⟨rfl, ⟨0, 0, 13, 1, 4, 124, 6, 152, 0⟩, rfl⟩

end

/-- The conference is changed twice after its membership was cached, one call after the
other, and its membership is fetched again. -/
theorem Run.idleCurrent_changed :
    ∃ pool : PersonPool,
      pool.state.memberships.dict.get? 5 = some (membershipAt 0 5 13) ∧
      pool.state.Caches (fun c m => m ∈ pool.world.memberships ∧ m.conference = c)
        fun i m => pool.world.memberships[i]? = some m := by
  let first : CachingPersonClient := { CachingPersonClient.init with persNo := 7 }
  have hget : (PersonCall.getMembership 7 5 false).Plain 7 := ⟨rfl, rfl⟩
  have hchange : ∀ confNo, (PersonCall.changeConference confNo).Plain 7 := fun _ => trivial
  obtain ⟨pool, hrun, hidle, hcached⟩ : ∃ pool, Run (PersonPool.Step 7)
      (fun pool a => a.Plain 7 ∧ a.Chained pool)
      (.init first ⟨[membershipAt 0 5 12], 0⟩) pool ∧ pool.Idle ∧
      pool.state.memberships.dict.get? 5 = some (membershipAt 0 5 13) := by
    apply run_alone (PersonCall.body_getMembership_own first 5) (serves_getMembership 12 0)
      (chained_others hget) (chained_of_remembers rfl fun hzero => absurd rfl hzero)
    apply run_alone (PersonCall.body_changeConference _ 5) (serves_changeConference _ 5)
      (chained_others (hchange 5)) (chained_of_remembers rfl fun hzero => absurd rfl hzero)
    apply run_alone (PersonCall.body_changeConference _ 6) (serves_changeConference _ 6)
      (chained_others (hchange 6)) (chained_of_remembers rfl fun _ => rfl)
    apply run_alone (PersonCall.body_getMembership_own _ 5) (serves_getMembership 13 6)
      (chained_others hget) (chained_of_remembers rfl fun _ => rfl)
    exact ⟨_, Run.refl, ⟨rfl, rfl, rfl, rfl⟩, rfl⟩
  exact ⟨pool, hcached, Run.idleCurrent (MembershipServer.wellFormed_singleton rfl 0) hrun hidle⟩

/-- Two calls overlap, and the membership of the conference of the first stays as it was. -/
theorem Run.not_idleCurrent :
    ¬ ∀ (server : MembershipServer) (pool : PersonPool), server.WellFormed →
      server.workingConference = 0 →
      Run (PersonPool.Step 7) (fun _ a => a.Plain 7 ∧ a.InOrder)
        (.init { CachingPersonClient.init with persNo := 7 } server) pool → pool.Idle →
      pool.state.Caches (fun _ m => m ∈ pool.world.memberships)
        fun _ m => m ∈ pool.world.memberships := by
  intro hclaim
  let first : CachingPersonClient := { CachingPersonClient.init with persNo := 7 }
  have hget : (PersonCall.getMembership 7 5 false).Plain 7 := ⟨rfl, rfl⟩
  obtain ⟨pool, hrun, hidle, hcached, hserver⟩ : ∃ pool, Run (PersonPool.Step 7)
      (fun _ a => a.Plain 7 ∧ a.InOrder) (.init first ⟨[membershipAt 0 5 12], 0⟩) pool ∧
      pool.Idle ∧ pool.state.memberships.dict.get? 5 = some (membershipAt 0 5 12) ∧
      pool.world.memberships = [membershipAt 0 5 13] := by
    apply run_alone (PersonCall.body_getMembership_own first 5) (serves_getMembership 12 0)
      (fun _ => ⟨⟨⟨hget, trivial⟩, trivial, trivial⟩, ⟨trivial, trivial⟩, trivial, rfl⟩)
      ⟨trivial, trivial⟩
    apply run_start (PersonCall.body_changeConference _ 5)
      (fun _ => ⟨⟨trivial, trivial⟩, trivial, trivial⟩)
    apply run_start (PersonCall.body_changeConference _ 6)
      (fun _ => ⟨⟨trivial, trivial⟩, trivial, trivial⟩)
    apply run_serve (serves_changeConference _ 5) ⟨trivial, trivial⟩
    apply run_serve (serves_changeConference _ 6) ⟨trivial, trivial⟩
    apply run_resume (fun _ => ⟨⟨trivial, trivial⟩, trivial, rfl⟩)
    apply run_resume (fun _ => ⟨⟨trivial, trivial⟩, trivial, rfl⟩)
    exact ⟨_, Run.refl, ⟨rfl, rfl, rfl, rfl⟩, rfl, rfl⟩
  have wellFormed := MembershipServer.wellFormed_singleton (m := membershipAt 0 5 12) rfl 0
  have hmem := (hclaim _ pool wellFormed rfl hrun hidle).memberships hcached
  rw [hserver] at hmem
  exact absurd hmem (by decide)

end Pylyskom
