import Pylyskom.PersonClient.Caches
import Pylyskom.Transitions

/-!
# Positions after joins and leaves

A conference that is inserted or removed shifts the memberships behind it. The handlers
drop all that is cached by position, but of what is cached by conference at most the
membership of the conference itself, so the others keep the positions that they had.
-/

namespace Pylyskom

/-- The memberships of a person in the server, the position of each of which is its index,
and the messages that have been sent and not been read. -/
structure ListServer where
  confs : List Membership
  coming : List AsyncMessage

namespace ListServer

/-- A conference has a position. -/
def At (server : ListServer) (confNo position : ℕ) : Prop :=
  server.confs[position]?.map Membership11.conference = some confNo

/-- The membership list as it is sent. -/
def listed (server : ListServer) : List Membership :=
  server.confs.mapIdx fun position m => { m with position }

/-- How the server answers a person's requests without read ranges. -/
def answers (persNo : ℕ) (server : ListServer) : (req : PersonRequest) → req.Reply → Prop
  | .getMembership11 person first noOfConfs 0 _, memberships =>
    person = persNo ∧ memberships = (server.listed.drop first).take noOfConfs
  | .queryReadTexts11 person conference 0 _, membership =>
    person = persNo ∧ membership ∈ server.listed ∧ membership.conference = conference
  | _, _ => False

/-- A conference is inserted in the list, and the client is told. -/
def join (server : ListServer) (persNo i : ℕ) (m : Membership) : ListServer where
  confs := server.confs.insertIdx i m
  coming := server.coming ++ [.newMembership persNo m.conference]

/-- A conference is removed from the list, and the client is told. -/
def leave (server : ListServer) (i confNo : ℕ) : ListServer where
  confs := server.confs.eraseIdx i
  coming := server.coming ++ [.leaveConf confNo]

/-- A request is answered or refused, after the messages sent before have been read. -/
def Served (persNo : ℕ) (req : PersonRequest) (s : CachingPersonClient × ListServer)
    (reply : Except Exn req.Reply) (t : CachingPersonClient × ListServer) : Prop :=
  t = (s.2.coming.foldl CachingPersonClient.handleAsyncMessage s.1, { s.2 with coming := [] }) ∧
    match reply with
    | .ok value => s.2.answers persNo req value
    | .error e => ∃ error, e = .serverError error

end ListServer

inductive ListAction : Type
  | join (i : ℕ) (m : Membership)
  | leave (i confNo : ℕ)
  | read
  | call (call : PersonCall)

/-- The calls of the person's own memberships, without read ranges. -/
def PersonCall.Gets (persNo : ℕ) : PersonCall → Prop
  | getMemberships p _ _ wantReadRanges => p = persNo ∧ wantReadRanges = false
  | getMembership p _ wantReadRanges => p = persNo ∧ wantReadRanges = false
  | _ => False

/-- The server changes the list, or the client reads a message or makes a call. -/
inductive ListStep (persNo : ℕ) :
    CachingPersonClient × ListServer → ListAction → CachingPersonClient × ListServer → Prop
  | join {s : CachingPersonClient × ListServer} {i : ℕ} {m : Membership}
      (within : i ≤ s.2.confs.length)
      (fresh : m.conference ∉ s.2.confs.map Membership11.conference) :
      ListStep persNo s (.join i m) (s.1, s.2.join persNo i m)
  | leave {s : CachingPersonClient × ListServer} {i confNo : ℕ} (found : s.2.At confNo i) :
      ListStep persNo s (.leave i confNo) (s.1, s.2.leave i confNo)
  | read {s : CachingPersonClient × ListServer} {msg : AsyncMessage}
      {coming : List AsyncMessage} (hcoming : s.2.coming = msg :: coming) :
      ListStep persNo s .read (s.1.handleAsyncMessage msg, { s.2 with coming })
  | call {s t : CachingPersonClient × ListServer} {call : PersonCall}
      {result : Except Exn (List Membership)} (gets : call.Gets persNo)
      (ends : (call.body s.1).Ends (ListServer.Served persNo) s.2 result t) :
      ListStep persNo s (.call call) t

/-- A membership that the messages sent so far leave in the cache by conference. -/
def ListServer.Remains (s : CachingPersonClient × ListServer) (c : ℕ) (m : Membership) : Prop :=
  s.1.memberships.dict.get? c = some m ∧ .leaveConf c ∉ s.2.coming

/-- A change of the list shifts no membership that remains in the cache by conference. -/
def ListAction.ShiftsNone (s : CachingPersonClient × ListServer) : ListAction → Prop
  | join i _ => ∀ c m, ListServer.Remains s c m → m.position < i
  | leave i confNo => ∀ c m, ListServer.Remains s c m → c ≠ confNo → m.position < i
  | read | call _ => True

namespace ListServer

variable {server : ListServer} {persNo : ℕ}

/-- A conference has one position. -/
theorem At.unique (hdistinct : (server.confs.map Membership11.conference).Nodup) {c i j : ℕ}
    (hi : server.At c i) (hj : server.At c j) : i = j := by
  unfold At at hi hj
  rw [← List.getElem?_map] at hi hj
  obtain ⟨hlt, -⟩ := List.getElem?_eq_some_iff.mp hi
  exact (List.getElem?_inj hlt hdistinct).mp (hi.trans hj.symm)

/-- What is listed has the position at which it is listed. -/
theorem at_of_mem_listed {m : Membership} (h : m ∈ server.listed) :
    server.At m.conference m.position := by
  obtain ⟨i, hi⟩ := List.mem_iff_getElem?.mp h
  rw [listed, List.getElem?_mapIdx, Option.map_eq_some_iff] at hi
  obtain ⟨n, hn, rfl⟩ := hi
  unfold At
  rw [hn]
  rfl

/-- A conference in front of the one that is inserted stays where it is. -/
theorem At.join {c j i : ℕ} (h : server.At c j) (hlt : j < i) (persNo : ℕ) (m : Membership) :
    (server.join persNo i m).At c j := by
  unfold At ListServer.join at *
  rwa [List.getElem?_insertIdx_of_lt hlt]

/-- A conference in front of the one that is removed stays where it is. -/
theorem At.leave {c j i : ℕ} (h : server.At c j) (hlt : j < i) (confNo : ℕ) :
    (server.leave i confNo).At c j := by
  unfold At ListServer.leave at *
  rwa [List.getElem?_eraseIdx_of_lt hlt]

theorem distinct_join (hdistinct : (server.confs.map Membership11.conference).Nodup) {i : ℕ}
    {m : Membership} (hwithin : i ≤ server.confs.length)
    (hfresh : m.conference ∉ server.confs.map Membership11.conference) :
    ((server.join persNo i m).confs.map Membership11.conference).Nodup := by
  have hperm := (List.perm_insertIdx m server.confs hwithin).map Membership11.conference
  apply hperm.nodup_iff.mpr
  exact List.nodup_cons.mpr ⟨hfresh, hdistinct⟩

theorem distinct_leave (hdistinct : (server.confs.map Membership11.conference).Nodup)
    (i confNo : ℕ) : ((server.leave i confNo).confs.map Membership11.conference).Nodup :=
  hdistinct.sublist ((List.eraseIdx_sublist server.confs i).map Membership11.conference)

/-- What is cached by conference has the right position unless a message is to remove it,
and what is cached by position unless any message is to come. -/
structure Kept (persNo : ℕ) (s : CachingPersonClient × ListServer) : Prop where
  distinct : (s.2.confs.map Membership11.conference).Nodup
  moves : ∀ msg ∈ s.2.coming,
    (∃ confNo, msg = .leaveConf confNo) ∨ ∃ person confNo, msg = .newMembership person confNo
  persNo_eq : s.1.persNo = persNo
  caches : s.1.Caches
    (fun c m => m.conference = c ∧ (.leaveConf c ∈ s.2.coming ∨ s.2.At c m.position))
    fun i m => s.2.coming ≠ [] ∨ m.position = i ∧ s.2.At m.conference i

namespace Kept

variable {s : CachingPersonClient × ListServer}

/-- Each message removes all that is cached by position, and what it is to remove of what is
cached by conference. -/
theorem read (h : Kept persNo s) {msg : AsyncMessage} {coming : List AsyncMessage}
    (hcoming : s.2.coming = msg :: coming) :
    Kept persNo (s.1.handleAsyncMessage msg, { s.2 with coming }) := by
  have hmoves : ∀ other ∈ coming, (∃ confNo, other = .leaveConf confNo) ∨
      ∃ person confNo, other = .newMembership person confNo :=
    fun other hother => h.moves other (hcoming ▸ List.mem_cons_of_mem _ hother)
  have hlater : ∀ c, .leaveConf c ≠ msg → .leaveConf c ∈ s.2.coming → .leaveConf c ∈ coming := by
    intro c hne hmem
    rw [hcoming] at hmem
    exact (List.mem_cons.mp hmem).resolve_left hne
  rcases h.moves msg (hcoming ▸ List.mem_cons_self) with ⟨confNo, rfl⟩ | ⟨person, confNo, rfl⟩
  · refine ⟨h.distinct, hmoves, h.persNo_eq, fun {c m} hm => ?_, fun hm => ?_⟩
    · simp only [CachingPersonClient.handleAsyncMessage, CachingPersonClient.cpahLeaveConf,
        Cache.get?_invalidate] at hm
      split_ifs at hm with hc
      obtain ⟨hconf, hat⟩ := h.caches.memberships hm
      exact ⟨hconf, hat.imp_left (hlater c fun heq => hc (AsyncMessage.leaveConf.inj heq))⟩
    · cases hm
  · refine ⟨h.distinct, hmoves, h.persNo_eq, fun {c m} hm => ?_, fun hm => ?_⟩
    · obtain ⟨hconf, hat⟩ := h.caches.memberships hm
      exact ⟨hconf, hat.imp_left (hlater c AsyncMessage.noConfusion)⟩
    · cases hm

/-- Before a reply all the messages are read. -/
theorem served (h : Kept persNo s) {req : PersonRequest} {reply : Except Exn req.Reply}
    {t : CachingPersonClient × ListServer} (hserved : Served persNo req s reply t) :
    Kept persNo t ∧ t.2.coming = [] := by
  obtain ⟨rfl, -⟩ := hserved
  refine ⟨?_, rfl⟩
  obtain ⟨client, confs, coming⟩ := s
  induction coming generalizing client with
  | nil => exact h
  | cons msg coming ih => exact ih _ (h.read rfl)

/-- A change that shifts nothing of what stays cached, and sends a message. -/
theorem change (h : Kept persNo s) {server : ListServer} {msg : AsyncMessage}
    (hcoming : server.coming = s.2.coming ++ [msg])
    (hmoves : (∃ confNo, msg = .leaveConf confNo) ∨
      ∃ person confNo, msg = .newMembership person confNo)
    (hdistinct : (server.confs.map Membership11.conference).Nodup)
    (hat : ∀ c n, s.1.memberships.dict.get? c = some n → .leaveConf c ∉ s.2.coming →
      .leaveConf c ≠ msg → s.2.At c n.position → server.At c n.position) :
    Kept persNo (s.1, server) := by
  refine ⟨hdistinct, ?_, h.persNo_eq, ?_, ?_⟩
  · intro other hother
    rw [hcoming] at hother
    rcases List.mem_append.mp hother with hother | hother
    · exact h.moves other hother
    · obtain rfl := List.mem_singleton.mp hother
      exact hmoves
  · intro c n hn
    obtain ⟨hconf, hleft⟩ := h.caches.memberships hn
    rw [hcoming]
    refine ⟨hconf, ?_⟩
    by_cases hmem : .leaveConf c ∈ s.2.coming
    · exact Or.inl (List.mem_append_left _ hmem)
    · by_cases hmsg : .leaveConf c = msg
      · exact Or.inl (List.mem_append_right _ (List.mem_singleton.mpr hmsg))
      · exact Or.inr (hat c n hn hmem hmsg (hleft.resolve_left hmem))
  · intro _ _ _
    rw [hcoming]
    exact Or.inl (List.append_ne_nil_of_right_ne_nil _ (List.cons_ne_nil _ _))

theorem join (h : Kept persNo s) {i : ℕ} {m : Membership} (hwithin : i ≤ s.2.confs.length)
    (hfresh : m.conference ∉ s.2.confs.map Membership11.conference)
    (hnone : (ListAction.join i m).ShiftsNone s) : Kept persNo (s.1, s.2.join persNo i m) := by
  apply h.change rfl (Or.inr ⟨persNo, m.conference, rfl⟩)
    (distinct_join h.distinct hwithin hfresh)
  intro c n hn hmem _ hat
  exact hat.join (hnone c n ⟨hn, hmem⟩) persNo m

theorem leave (h : Kept persNo s) {i confNo : ℕ}
    (hnone : (ListAction.leave i confNo).ShiftsNone s) :
    Kept persNo (s.1, s.2.leave i confNo) := by
  apply h.change rfl (Or.inl ⟨confNo, rfl⟩) (distinct_leave h.distinct i confNo)
  intro c n hn hmem hmsg hat
  have hne : c ≠ confNo := fun heq => hmsg (congrArg AsyncMessage.leaveConf heq)
  exact hat.leave (hnone c n ⟨hn, hmem⟩ hne) confNo

theorem getMemberships (h : Kept persNo s) {first noOfConfs : ℕ}
    {result : Except Exn (List Membership)} {t : CachingPersonClient × ListServer}
    (ends : ((PersonCall.getMemberships persNo first noOfConfs false).body s.1).Ends
      (Served persNo) s.2 result t) : Kept persNo t := by
  have hpersNo := h.persNo_eq
  subst hpersNo
  rcases PersonCall.ends_getMemberships_own ends with ⟨-, -, -, rfl⟩ | ends
  · exact h
  · rcases Suspended.ends_once.mp ends with ⟨ms, u, hserved, -, rfl⟩ | ⟨e, hserved, -⟩
    · obtain ⟨hu, -⟩ := h.served hserved
      obtain ⟨rfl, -, rfl⟩ := hserved
      refine ⟨hu.distinct, hu.moves, hu.persNo_eq, hu.caches.update fun m hm => ?_⟩
      have hm : m ∈ s.2.listed := List.mem_of_mem_drop (List.mem_of_mem_take hm)
      exact Or.inr ⟨rfl, at_of_mem_listed hm⟩
    · exact (h.served hserved).1

theorem getMembership (h : Kept persNo s) {confNo : ℕ}
    {result : Except Exn (List Membership)} {t : CachingPersonClient × ListServer}
    (ends : ((PersonCall.getMembership persNo confNo false).body s.1).Ends
      (Served persNo) s.2 result t) : Kept persNo t := by
  have hpersNo := h.persNo_eq
  subst hpersNo
  rcases PersonCall.ends_getMembership_own ends with ⟨-, -, -, rfl⟩ | ends
  · exact ⟨h.distinct, h.moves, h.persNo_eq, h.caches.hit⟩
  · have hmissed : Kept s.1.persNo (PersonCall.missed s.1, s.2) :=
      ⟨h.distinct, h.moves, h.persNo_eq, h.caches.missed⟩
    rcases Suspended.ends_once.mp ends with ⟨m, u, hserved, -, rfl⟩ | ⟨e, hserved, -⟩
    · obtain ⟨hu, -⟩ := hmissed.served hserved
      obtain ⟨rfl, -, hm, hconf⟩ := hserved
      refine ⟨hu.distinct, hu.moves, hu.persNo_eq, hu.caches.stored ⟨hconf, ?_⟩⟩
      exact Or.inr (hconf ▸ at_of_mem_listed hm)
    · exact (hmissed.served hserved).1

end Kept

end ListServer

/-- **A change that shifts no cached membership keeps the positions right.** -/
theorem ListStep.kept {persNo : ℕ} {s t : CachingPersonClient × ListServer} {a : ListAction}
    (hstep : ListStep persNo s a t) (hnone : a.ShiftsNone s) (h : ListServer.Kept persNo s) :
    ListServer.Kept persNo t := by
  cases hstep with
  | join within fresh => exact h.join within fresh hnone
  | leave found => exact h.leave hnone
  | read hcoming => exact h.read hcoming
  | @call _ call result gets ends =>
    cases call with
    | login | logout | changeConference => cases gets
    | getMemberships p first noOfConfs wantReadRanges =>
      obtain ⟨rfl, rfl⟩ := gets
      exact h.getMemberships ends
    | getMembership p confNo wantReadRanges =>
      obtain ⟨rfl, rfl⟩ := gets
      exact h.getMembership ends

/-- **The caches agree with the server's positions**, and so with each other, in every run in
which no change shifts a cached membership, whenever all the messages have been read. -/
theorem Run.positionsAgree {persNo : ℕ} {confs : List Membership}
    {s : CachingPersonClient × ListServer} (distinct : (confs.map Membership11.conference).Nodup)
    (h : Run (ListStep persNo) (fun s a => a.ShiftsNone s)
      ({ CachingPersonClient.init with persNo }, ⟨confs, []⟩) s) (hread : s.2.coming = []) :
    (∀ c m, s.1.memberships.dict.get? c = some m →
      m.conference = c ∧ s.2.At c m.position) ∧
    (∀ first noOfConfs ms, s.1.getCachedMembershipsByPosition first noOfConfs = some ms →
      ∀ m ∈ ms, s.2.At m.conference m.position) ∧
    ∀ c m first noOfConfs ms, s.1.memberships.dict.get? c = some m →
      s.1.getCachedMembershipsByPosition first noOfConfs = some ms →
      ∀ n ∈ ms, n.conference = c → n.position = m.position := by
  have hkept : ListServer.Kept persNo s := by
    apply h.invariant (P := fun s => ListServer.Kept persNo s)
    · refine ⟨distinct, ?_, rfl, .init persNo⟩
      intro msg hmsg
      cases hmsg
    · exact fun hnone hstep hu => hstep.kept hnone hu
  have hmemberships : ∀ c m, s.1.memberships.dict.get? c = some m →
      m.conference = c ∧ s.2.At c m.position := by
    intro c m hm
    obtain ⟨hconf, hleft | hat⟩ := hkept.caches.memberships hm
    · rw [hread] at hleft
      cases hleft
    · exact ⟨hconf, hat⟩
  have hbyPosition : ∀ first noOfConfs ms,
      s.1.getCachedMembershipsByPosition first noOfConfs = some ms →
      ∀ m ∈ ms, s.2.At m.conference m.position := by
    intro first noOfConfs ms hms m hm
    obtain ⟨i, -, hi⟩ := exists_of_forall₂ (hkept.caches.found hms) hm
    obtain ⟨rfl, hat⟩ := hi.resolve_left fun hcoming => hcoming hread
    exact hat
  refine ⟨hmemberships, hbyPosition, ?_⟩
  intro c m first noOfConfs ms hm hms n hn hconf
  have hat := hbyPosition first noOfConfs ms hms n hn
  rw [hconf] at hat
  exact hat.unique hkept.distinct (hmemberships c m hm).2

section

/-- One of two conferences is fetched, and then the one at some position leaves. -/
private theorem run_leave {P : CachingPersonClient × ListServer → Prop}
    {allowed : CachingPersonClient × ListServer → ListAction → Prop} {c i confNo : ℕ}
    {m : Membership}
    (hm : m ∈ ListServer.listed ⟨[membershipAt 0 5 12, membershipAt 1 6 12], []⟩)
    (hconf : m.conference = c)
    (hfound : ListServer.At ⟨[membershipAt 0 5 12, membershipAt 1 6 12], []⟩ confNo i)
    (hget : ∀ s, allowed s (.call (.getMembership 7 c false)))
    (hleave : ∀ s : CachingPersonClient × ListServer,
      (∀ k n, s.1.memberships.dict.get? k = some n → k = c ∧ n = m) →
      allowed s (.leave i confNo)) (hread : ∀ s, allowed s .read)
    (h : ∀ client : CachingPersonClient,
      client.memberships.dict.get? c = (if c = confNo then none else some m) →
      P (client, ⟨[membershipAt 0 5 12, membershipAt 1 6 12].eraseIdx i, []⟩)) :
    ∃ s, Run (ListStep 7) allowed ({ CachingPersonClient.init with persNo := 7 },
      ⟨[membershipAt 0 5 12, membershipAt 1 6 12], []⟩) s ∧ P s := by
  let first : CachingPersonClient := { CachingPersonClient.init with persNo := 7 }
  let server : ListServer := ⟨[membershipAt 0 5 12, membershipAt 1 6 12], []⟩
  have hfetch : ListStep 7 (first, server) (.call (.getMembership 7 c false))
      (PersonCall.stored c m (PersonCall.missed first), server) := by
    have hbody : (PersonCall.getMembership 7 c false).body first =
        .once (PersonCall.missed first) (.queryReadTexts11 7 c 0 0) fun membership t =>
          ([membership], PersonCall.stored c membership t) :=
      PersonCall.body_getMembership_own first c
    have hserved : ListServer.Served 7 (.queryReadTexts11 7 c 0 0)
        (PersonCall.missed first, server) (.ok m) (PersonCall.missed first, server) :=
      ⟨rfl, rfl, hm, hconf⟩
    have hgets : (PersonCall.getMembership 7 c false).Gets 7 := ⟨rfl, rfl⟩
    apply ListStep.call hgets
    rw [hbody]
    exact Suspended.ends_once.mpr (Or.inl ⟨m, _, hserved, rfl, rfl⟩)
  refine Run.reach (hget _) hfetch ?_
  refine Run.reach (hleave _ ?_) (.leave hfound) ?_
  · intro k n hn
    simp only [PersonCall.stored, Cache.get?_setitem] at hn
    split_ifs at hn with hk
    · exact ⟨hk, (Option.some.inj hn).symm⟩
    · cases hn
  refine Run.reach (hread _) (.read rfl) ⟨_, Run.refl, h _ ?_⟩
  simp [CachingPersonClient.handleAsyncMessage, CachingPersonClient.cpahLeaveConf,
    PersonCall.stored]

/-- The conference at the end of the list leaves, and the other one stays cached. -/
theorem Run.positionsAgree_leave :
    ∃ s : CachingPersonClient × ListServer,
      s.1.memberships.dict.get? 5 = some (membershipAt 0 5 12) ∧
      ∀ c m, s.1.memberships.dict.get? c = some m → m.conference = c ∧ s.2.At c m.position := by
  obtain ⟨s, hrun, hcached, hread⟩ := @run_leave
    (fun s => s.1.memberships.dict.get? 5 = some (membershipAt 0 5 12) ∧ s.2.coming = [])
    (fun s a => a.ShiftsNone s) 5 1 6 (membershipAt 0 5 12) (by decide) rfl rfl
    (fun _ => trivial) (fun s honly c m hremains _ => by
      obtain ⟨-, rfl⟩ := honly c m hremains.1
      exact Nat.zero_lt_one) (fun _ => trivial) fun _ hcached => ⟨hcached, rfl⟩
  exact ⟨s, hcached, (Run.positionsAgree (by decide) hrun hread).1⟩

/-- The conference at the start of the list leaves, and the other one keeps position 1. -/
theorem Run.not_positionsAgree :
    ¬ ∀ (confs : List Membership) (s : CachingPersonClient × ListServer),
      (confs.map Membership11.conference).Nodup →
      Run (ListStep 7) (fun _ _ => True)
        ({ CachingPersonClient.init with persNo := 7 }, ⟨confs, []⟩) s → s.2.coming = [] →
      ∀ c m, s.1.memberships.dict.get? c = some m → s.2.At c m.position := by
  intro hclaim
  obtain ⟨s, hrun, hcached, hconfs, hread⟩ := @run_leave
    (fun s => s.1.memberships.dict.get? 6 = some (membershipAt 1 6 12) ∧
      s.2.confs = [membershipAt 1 6 12] ∧ s.2.coming = [])
    (fun _ _ => True) 6 0 5 (membershipAt 1 6 12) (by decide) rfl rfl
    (fun _ => trivial) (fun _ _ => trivial) (fun _ => trivial)
    fun _ hcached => ⟨hcached, rfl, rfl⟩
  have hat := hclaim _ s (by decide) hrun hread 6 _ hcached
  unfold ListServer.At at hat
  rw [hconfs] at hat
  cases hat

end

end Pylyskom
