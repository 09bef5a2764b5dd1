import Pylyskom.PersonClient.Caches
import Pylyskom.Transitions

/-!
# Cached memberships are current

While one person is logged in and only `change_conference` changes a membership, the
caches hold what the server holds: the one membership that the server changes is the one
that the client invalidates.
-/

namespace Pylyskom

/-- The memberships of the person who is logged in, in the server. -/
structure MembershipServer where
  memberships : List Membership
  /-- There is none if it is 0. -/
  workingConference : ℕ

namespace MembershipServer

/-- Positions are counted from 0, and no conference is listed twice. -/
structure WellFormed (server : MembershipServer) : Prop where
  position : ∀ {i : ℕ} {m : Membership}, server.memberships[i]? = some m → m.position = i
  distinct : (server.memberships.map Membership11.conference).Nodup

/-- The membership of the previous working conference gets a new `last-time-read`. -/
def changeConference (server : MembershipServer) (confNo : ℕ) (now : Time) :
    MembershipServer where
  memberships := server.memberships.map fun m =>
    if server.workingConference ≠ 0 ∧ m.conference = server.workingConference then
      { m with lastTimeRead := now }
    else m
  workingConference := confNo

/-- How the server answers a person's requests without read ranges. -/
def answers (persNo : ℕ) :
    (req : PersonRequest) → MembershipServer → req.Reply → MembershipServer → Prop
  | .getMembership11 person first noOfConfs 0 _, server, memberships, server' =>
    person = persNo ∧ server' = server ∧
      memberships = (server.memberships.drop first).take noOfConfs
  | .queryReadTexts11 person conference 0 _, server, membership, server' =>
    person = persNo ∧ server' = server ∧ membership ∈ server.memberships ∧
      membership.conference = conference
  | .changeConference confNo, server, _, server' =>
    ∃ now, server' = server.changeConference confNo now
  | _, _, _, _ => False

variable {server : MembershipServer}

theorem wellFormed_singleton {m : Membership} (hposition : m.position = 0)
    (workingConference : ℕ) : WellFormed ⟨[m], workingConference⟩ := by
  refine ⟨fun {i n} hn => ?_, List.nodup_singleton _⟩
  cases i with
  | zero =>
    obtain rfl := Option.some.inj hn
    exact hposition
  | succ i => cases hn

/-- A conference has one membership. -/
theorem WellFormed.unique (h : server.WellFormed) {m n : Membership}
    (hm : m ∈ server.memberships) (hn : n ∈ server.memberships)
    (hconf : m.conference = n.conference) : m = n :=
  List.inj_on_of_nodup_map h.distinct hm hn hconf

theorem WellFormed.changeConference (h : server.WellFormed) (confNo : ℕ) (now : Time) :
    (server.changeConference confNo now).WellFormed := by
  constructor
  · intro i m hm
    simp only [MembershipServer.changeConference, List.getElem?_map, Option.map_eq_some_iff] at hm
    obtain ⟨n, hn, rfl⟩ := hm
    have hposition := h.position hn
    split <;> exact hposition
  · have hsame : (server.changeConference confNo now).memberships.map Membership11.conference =
        server.memberships.map Membership11.conference := by
      simp only [MembershipServer.changeConference, List.map_map]
      apply List.map_congr_left
      intro m _
      simp only [Function.comp_apply]
      split <;> rfl
    rw [hsame]
    exact h.distinct

/-- The memberships of the other conferences stay as they are. -/
theorem getElem?_changeConference {confNo : ℕ} {now : Time} {i : ℕ} {m : Membership}
    (hm : server.memberships[i]? = some m)
    (hother : server.workingConference ≠ 0 → m.conference ≠ server.workingConference) :
    (server.changeConference confNo now).memberships[i]? = some m := by
  have hnot : ¬ (server.workingConference ≠ 0 ∧ m.conference = server.workingConference) :=
    fun ⟨hzero, hconf⟩ => hother hzero hconf
  simp only [MembershipServer.changeConference, List.getElem?_map, hm, Option.map_some, hnot,
    if_false]

theorem mem_changeConference {confNo : ℕ} {now : Time} {m : Membership}
    (hm : m ∈ server.memberships)
    (hother : server.workingConference ≠ 0 → m.conference ≠ server.workingConference) :
    m ∈ (server.changeConference confNo now).memberships := by
  obtain ⟨i, hi⟩ := List.mem_iff_getElem?.mp hm
  exact List.mem_iff_getElem?.mpr ⟨i, getElem?_changeConference hi hother⟩

end MembershipServer

namespace CachingPersonClient

/-- What is cached is what the server holds. -/
structure Fresh (client : CachingPersonClient) (persNo : ℕ) (server : MembershipServer) :
    Prop where
  wellFormed : server.WellFormed
  persNo_eq : client.persNo = persNo
  current : client.currentConferenceNo = server.workingConference
  caches : client.Caches (fun c m => m ∈ server.memberships ∧ m.conference = c)
    fun i m => server.memberships[i]? = some m

namespace Fresh

variable {client : CachingPersonClient} {persNo : ℕ} {server : MembershipServer}

/-- **The conference that the server changes is the one that the client invalidates.** -/
theorem changeConference (h : client.Fresh persNo server) (confNo : ℕ) (now : Time) :
    (PersonCall.changed client.currentConferenceNo confNo client).Fresh persNo
      (server.changeConference confNo now) := by
  refine ⟨h.wellFormed.changeConference confNo now,
    (persNo_changed _ _).trans h.persNo_eq, ?_, fun {c m} hm => ?_, fun {i m} hm => ?_⟩
  · unfold PersonCall.changed
    split <;> rfl
  · rw [h.current] at hm
    obtain ⟨hm, hne⟩ := memberships_of_changed hm
    obtain ⟨hmem, rfl⟩ := h.caches.memberships hm
    exact ⟨MembershipServer.mem_changeConference hmem hne, rfl⟩
  · have hunique : ∀ {i j : ℕ} {m n : Membership},
        client.membershipsByPosition.get? i = some m →
        client.membershipsByPosition.get? j = some n → m.conference = n.conference → i = j := by
      intro i j m n hi hj hconf
      have hi := h.caches.byPosition hi
      have hj := h.caches.byPosition hj
      have hm := List.mem_of_getElem? hi
      obtain rfl := h.wellFormed.unique hm (List.mem_of_getElem? hj) hconf
      rw [← h.wellFormed.position hi, h.wellFormed.position hj]
    rw [h.current] at hm
    obtain ⟨hm, hne⟩ := byPosition_of_changed hunique hm
    exact MembershipServer.getElem?_changeConference (h.caches.byPosition hm) hne

/-- What is cached for a window is what the server holds there. -/
theorem found (h : client.Fresh persNo server) {first noOfConfs : ℕ} {ms : List Membership}
    (hms : client.getCachedMembershipsByPosition first noOfConfs = some ms) :
    ms = (server.memberships.drop first).take noOfConfs :=
  eq_take_drop (h.caches.found hms)

end Fresh

end CachingPersonClient

/-- What a call returns that the server does not refuse: what the server holds. -/
def PersonCall.Returns (server : MembershipServer) : PersonCall → List Membership → Prop
  | getMemberships _ first noOfConfs _, memberships =>
    memberships = (server.memberships.drop first).take noOfConfs
  | getMembership _ confNo _, memberships =>
    ∃ m ∈ server.memberships, m.conference = confNo ∧ memberships = [m]
  | _, memberships => memberships = []

/-- The calls of one person, without read ranges, that neither log in nor out. -/
def PersonCall.Plain (persNo : ℕ) : PersonCall → Prop
  | getMemberships p _ _ wantReadRanges => p = persNo ∧ wantReadRanges = false
  | getMembership p _ wantReadRanges => p = persNo ∧ wantReadRanges = false
  | changeConference _ => True
  | _ => False

/-- The call has returned what the server holds, or it has raised the error with which the
server refused its request. -/
def PersonAction.Current (a : PersonAction) (server : MembershipServer) : Prop :=
  (∃ memberships, a.result = .ok memberships ∧ a.call.Returns server memberships) ∨
    a.refused = true ∧ ∃ error, a.result = .error (.serverError error)

section

variable {persNo : ℕ} {s t : CachingPersonClient × MembershipServer} {refused : Bool}
  {result : Except Exn (List Membership)}

theorem getMemberships_fresh (h : s.1.Fresh persNo s.2) {first noOfConfs : ℕ}
    (ends : ((PersonCall.getMemberships persNo first noOfConfs false).body s.1).Ends
      (PersonRequest.Served (MembershipServer.answers persNo) refused) s.2 result t) :
    t.1.Fresh persNo t.2 ∧
      PersonAction.Current ⟨.getMemberships persNo first noOfConfs false, refused, result⟩ t.2 := by
  have hpersNo := h.persNo_eq
  subst hpersNo
  rcases PersonCall.ends_getMemberships_own ends with ⟨ms, hcached, rfl, rfl⟩ | ends
  · exact ⟨h, Or.inl ⟨ms, rfl, h.found hcached⟩⟩
  · rcases PersonRequest.ends_once.mp ends with
      ⟨-, ms, ⟨-, hserver, rfl⟩, rfl, ht⟩ | ⟨hrefused, rfl, herror⟩
    · rw [ht, hserver]
      refine ⟨⟨h.wellFormed, h.persNo_eq, h.current, ?_⟩, Or.inl ⟨_, rfl, rfl⟩⟩
      apply h.caches.update
      intro m hm
      obtain ⟨i, hi⟩ := List.mem_iff_getElem?.mp (List.mem_of_mem_drop (List.mem_of_mem_take hm))
      rwa [h.wellFormed.position hi]
    · exact ⟨h, Or.inr ⟨hrefused, herror⟩⟩

theorem getMembership_fresh (h : s.1.Fresh persNo s.2) {confNo : ℕ}
    (ends : ((PersonCall.getMembership persNo confNo false).body s.1).Ends
      (PersonRequest.Served (MembershipServer.answers persNo) refused) s.2 result t) :
    t.1.Fresh persNo t.2 ∧
      PersonAction.Current ⟨.getMembership persNo confNo false, refused, result⟩ t.2 := by
  have hpersNo := h.persNo_eq
  subst hpersNo
  rcases PersonCall.ends_getMembership_own ends with ⟨m, hcached, rfl, rfl⟩ | ends
  · obtain ⟨hmem, hconf⟩ := h.caches.memberships hcached
    exact ⟨⟨h.wellFormed, rfl, h.current, h.caches.hit⟩, Or.inl ⟨_, rfl, m, hmem, hconf, rfl⟩⟩
  · rcases PersonRequest.ends_once.mp ends with
      ⟨-, m, ⟨-, hserver, hmem, hconf⟩, rfl, ht⟩ | ⟨hrefused, rfl, herror⟩
    · rw [ht, hserver]
      exact ⟨⟨h.wellFormed, rfl, h.current, h.caches.missed.stored ⟨hmem, hconf⟩⟩,
        Or.inl ⟨_, rfl, m, hmem, hconf, rfl⟩⟩
    · exact ⟨⟨h.wellFormed, rfl, h.current, h.caches.missed⟩, Or.inr ⟨hrefused, herror⟩⟩

end

/-- **Each call keeps the caches fresh**, and returns what the server holds. -/
theorem PersonStep.fresh {persNo : ℕ} {s t : CachingPersonClient × MembershipServer}
    {a : PersonAction} (hstep : PersonStep (MembershipServer.answers persNo) s a t)
    (hplain : a.call.Plain persNo) (h : s.1.Fresh persNo s.2) :
    t.1.Fresh persNo t.2 ∧ a.Current t.2 := by
  obtain @⟨_, call, refused, result, ends⟩ := hstep
  cases call with
  | login | logout => cases hplain
  | changeConference confNo =>
    rw [PersonCall.body_changeConference] at ends
    rcases PersonRequest.ends_once.mp ends with
      ⟨-, -, ⟨now, hserver⟩, rfl, ht⟩ | ⟨hrefused, rfl, herror⟩
    · rw [ht, hserver]
      exact ⟨h.changeConference confNo now, Or.inl ⟨_, rfl, rfl⟩⟩
    · exact ⟨h, Or.inr ⟨hrefused, herror⟩⟩
  | getMemberships p first noOfConfs wantReadRanges =>
    obtain ⟨rfl, rfl⟩ := hplain
    exact getMemberships_fresh h ends
  | getMembership p confNo wantReadRanges =>
    obtain ⟨rfl, rfl⟩ := hplain
    exact getMembership_fresh h ends

/-- **Cached answers equal fresh ones.** After every run of `get_memberships`,
`get_membership` and `change_conference` for the one person who is logged in, some of which
the server may have refused, the next such call returns what the server holds, from a cache
or not. -/
theorem Run.answersFresh {persNo : ℕ} {server : MembershipServer}
    {s t : CachingPersonClient × MembershipServer} {a : PersonAction}
    (wellFormed : server.WellFormed) (noConference : server.workingConference = 0)
    (h : Run (PersonStep (MembershipServer.answers persNo)) (fun _ a => a.call.Plain persNo)
      ({ CachingPersonClient.init with persNo }, server) s)
    (hstep : PersonStep (MembershipServer.answers persNo) s a t) (hplain : a.call.Plain persNo) :
    a.Current t.2 := by
  have hfresh : s.1.Fresh persNo s.2 := by
    apply h.invariant (P := fun s => s.1.Fresh persNo s.2)
    · exact ⟨wellFormed, rfl, noConference.symm, CachingPersonClient.Caches.init persNo⟩
    · exact fun hplain hstep hu => (hstep.fresh hplain hu).1
  exact (hstep.fresh hplain hfresh).2

/-- The working conference is changed twice after its membership was cached. -/
theorem Run.answersFresh_changed :
    ∃ server : MembershipServer, server.memberships = [membershipAt 0 5 13] ∧
      PersonAction.Current ⟨.getMembership 7 5 false, false, .ok [membershipAt 0 5 13]⟩ server := by
  let server : MembershipServer := ⟨[membershipAt 0 5 12], 0⟩
  have wellFormed : server.WellFormed := MembershipServer.wellFormed_singleton rfl 0
  let first : CachingPersonClient := { CachingPersonClient.init with persNo := 7 }
  have hmiss : ∀ client : CachingPersonClient, client.persNo = 7 →
      client.memberships.dict.get? 5 = none →
      (PersonCall.getMembership 7 5 false).body client =
        .once (PersonCall.missed client) (.queryReadTexts11 7 5 0 0) fun membership t =>
          ([membership], PersonCall.stored 5 membership t) := by
    intro client hpersNo hnone
    rw [← hpersNo, PersonCall.body_getMembership_own, hnone]
  have hfetch : ∀ {client : CachingPersonClient} {server : MembershipServer} {m : Membership},
      client.persNo = 7 → client.memberships.dict.get? 5 = none → m ∈ server.memberships →
      m.conference = 5 → PersonStep (MembershipServer.answers 7) (client, server)
        ⟨.getMembership 7 5 false, false, .ok [m]⟩
        (PersonCall.stored 5 m (PersonCall.missed client), server) := by
    intro client server m hpersNo hnone hmem hconf
    have hanswers : MembershipServer.answers 7 (.queryReadTexts11 7 5 0 0) server m server :=
      ⟨rfl, rfl, hmem, hconf⟩
    exact .answered m server (hmiss client hpersNo hnone) hanswers
  have hchange : ∀ (client : CachingPersonClient) (server : MembershipServer) (confNo : ℕ),
      PersonStep (MembershipServer.answers 7) (client, server)
        ⟨.changeConference confNo, false, .ok []⟩
        (PersonCall.changed client.currentConferenceNo confNo client,
          server.changeConference confNo ⟨0, 0, 13, 1, 4, 124, 6, 152, 0⟩) := by
    intro client server confNo
    exact .answered () _ (PersonCall.body_changeConference client confNo)
      ⟨⟨0, 0, 13, 1, 4, 124, 6, 152, 0⟩, rfl⟩
  obtain ⟨⟨client, server'⟩, hrun, hserver, hpersNo, hnone⟩ :
      ∃ s, Run (PersonStep (MembershipServer.answers 7)) (fun _ a => a.call.Plain 7)
        (first, server) s ∧ s.2.memberships = [membershipAt 0 5 13] ∧ s.1.persNo = 7 ∧
          s.1.memberships.dict.get? 5 = none := by
    refine Run.reach ?_ (hfetch rfl rfl (List.mem_singleton_self _) rfl) ?_
    · exact ⟨rfl, rfl⟩
    refine Run.reach ?_ (hchange _ _ 5) ?_
    · exact trivial
    refine Run.reach ?_ (hchange _ _ 0) ?_
    · exact trivial
    exact ⟨_, Run.refl, rfl, rfl, rfl⟩
  have hmem : membershipAt 0 5 13 ∈ server'.memberships := by
    rw [hserver]
    exact List.mem_singleton_self _
  exact ⟨server', hserver, Run.answersFresh wellFormed rfl hrun
    (hfetch hpersNo hnone hmem rfl) ⟨rfl, rfl⟩⟩

end Pylyskom
