import Pylyskom.PersonClient.Caches
import Pylyskom.Transitions
import Mathlib.Data.Set.Basic

/-!
# Whose memberships are cached

Neither cache is keyed by person. `logout` clears both, and `login` clears none, so the
caches hold memberships of the current person only while nobody logs in as another person
with something still cached.
-/

namespace Pylyskom

/-- A server that answers requests for memberships with records of the person named. -/
def recordAnswers (records : ℕ → Set Membership) :
    (req : PersonRequest) → Unit → req.Reply → Unit → Prop
  | .getMembership11 person _ _ _ _, _, memberships, _ => ∀ m ∈ memberships, m ∈ records person
  | .queryReadTexts11 person _ _ _, _, membership, _ => membership ∈ records person
  | _, _, _, _ => True

namespace CachingPersonClient

/-- No membership is cached. -/
def HoldsNone (self : CachingPersonClient) : Prop :=
  (∀ c, self.memberships.dict.get? c = none) ∧ ∀ i, self.membershipsByPosition.get? i = none

/-- The cached memberships are the current person's. -/
def Owned (self : CachingPersonClient) (records : ℕ → Set Membership) : Prop :=
  self.Caches (fun _ m => m ∈ records self.persNo) fun _ m => m ∈ records self.persNo

end CachingPersonClient

/-- The person whose memberships a call returns. -/
def PersonCall.person : PersonCall → Option ℕ
  | getMemberships persNo _ _ _ => some persNo
  | getMembership persNo _ _ => some persNo
  | _ => none

/-- A call of `login` that the server does not refuse, for another person, is made with no
membership cached. -/
def PersonAction.Alone (s : CachingPersonClient × Unit) (a : PersonAction) : Prop :=
  ∀ persNo password, a.call = .login persNo password → a.refused = false →
    persNo = s.1.persNo ∨ s.1.HoldsNone

section

variable {records : ℕ → Set Membership} {s t : CachingPersonClient × Unit} {refused : Bool}
  {result : Except Exn (List Membership)}

/-- A request that fails leaves the caches, and returns nothing. -/
private theorem refused_owned {persNo : Option ℕ} (h : s.1.Owned records) (ht : t = (s.1, s.2))
    (herror : ∃ error, result = .error (.serverError error)) :
    t.1.Owned records ∧ ∀ p memberships, persNo = some p → result = .ok memberships →
      ∀ m ∈ memberships, m ∈ records p := by
  obtain ⟨error, rfl⟩ := herror
  subst ht
  exact ⟨h, fun _ _ _ hok => by cases hok⟩

theorem owned_changed (h : s.1.Owned records) (prevConfNo confNo : ℕ) :
    (PersonCall.changed prevConfNo confNo s.1).Owned records := by
  have hcurrent : CachingPersonClient.Owned { s.1 with currentConferenceNo := confNo } records :=
    ⟨h.memberships, h.byPosition⟩
  unfold PersonCall.changed
  split
  · exact (hcurrent.invalidate prevConfNo).imp (fun _ _ hm => hm.2) fun _ _ => id
  · exact hcurrent

theorem getMemberships_owned (h : s.1.Owned records) {persNo first noOfConfs : ℕ}
    {wantReadRanges : Bool}
    (ends : ((PersonCall.getMemberships persNo first noOfConfs wantReadRanges).body s.1).Ends
      (PersonRequest.Served (recordAnswers records) refused) s.2 result t) :
    t.1.Owned records ∧ ∀ p memberships, some persNo = some p → result = .ok memberships →
      ∀ m ∈ memberships, m ∈ records p := by
  have hreply : ∀ {ms : List Membership} {p : ℕ}, (∀ m ∈ ms, m ∈ records persNo) →
      ∀ ms', some persNo = some p → (.ok ms : Except Exn (List Membership)) = .ok ms' →
        ∀ m ∈ ms', m ∈ records p := by
    rintro ms p hms ms' ⟨⟩ ⟨⟩
    exact hms
  cases wantReadRanges with
  | true =>
    rw [PersonCall.body_getMemberships_ranges] at ends
    rcases PersonRequest.ends_once.mp ends with ⟨-, ms, hms, rfl, ht⟩ | ⟨-, ht, herror⟩
    · exact ⟨ht ▸ h, fun p => hreply hms⟩
    · exact refused_owned h ht herror
  | false =>
    by_cases hown : persNo = s.1.persNo
    · subst hown
      rcases PersonCall.ends_getMemberships_own ends with ⟨ms, hcached, rfl, rfl⟩ | ends
      · refine ⟨h, fun p => hreply fun m hm => ?_⟩
        obtain ⟨-, -, hrecord⟩ := exists_of_forall₂ (h.found hcached) hm
        exact hrecord
      · rcases PersonRequest.ends_once.mp ends with ⟨-, ms, hms, rfl, ht⟩ | ⟨-, ht, herror⟩
        · exact ⟨ht ▸ h.update hms, fun p => hreply hms⟩
        · exact refused_owned h ht herror
    · rw [PersonCall.body_getMemberships_other s.1 hown] at ends
      rcases PersonRequest.ends_once.mp ends with ⟨-, ms, hms, rfl, ht⟩ | ⟨-, ht, herror⟩
      · exact ⟨ht ▸ h, fun p => hreply hms⟩
      · exact refused_owned h ht herror

theorem getMembership_owned (h : s.1.Owned records) {persNo confNo : ℕ} {wantReadRanges : Bool}
    (ends : ((PersonCall.getMembership persNo confNo wantReadRanges).body s.1).Ends
      (PersonRequest.Served (recordAnswers records) refused) s.2 result t) :
    t.1.Owned records ∧ ∀ p memberships, some persNo = some p → result = .ok memberships →
      ∀ m ∈ memberships, m ∈ records p := by
  have hreply : ∀ {m : Membership} {p : ℕ}, m ∈ records persNo →
      ∀ ms, some persNo = some p → (.ok [m] : Except Exn (List Membership)) = .ok ms →
        ∀ m ∈ ms, m ∈ records p := by
    rintro m p hm ms ⟨⟩ ⟨⟩ n hn
    rwa [List.mem_singleton.mp hn]
  cases wantReadRanges with
  | true =>
    rw [PersonCall.body_getMembership_ranges] at ends
    rcases PersonRequest.ends_once.mp ends with ⟨-, m, hm, rfl, ht⟩ | ⟨-, ht, herror⟩
    · exact ⟨ht ▸ h, fun p => hreply hm⟩
    · exact refused_owned h ht herror
  | false =>
    by_cases hown : persNo = s.1.persNo
    · subst hown
      rcases PersonCall.ends_getMembership_own ends with ⟨m, hcached, rfl, rfl⟩ | ends
      · exact ⟨h.hit, fun p => hreply (h.memberships hcached)⟩
      · rcases PersonRequest.ends_once.mp ends with ⟨-, m, hm, rfl, ht⟩ | ⟨-, ht, herror⟩
        · exact ⟨ht ▸ h.missed.stored hm, fun p => hreply hm⟩
        · have hmissed : (PersonCall.missed s.1).Owned records := h.missed
          exact refused_owned (s := (PersonCall.missed s.1, s.2)) hmissed ht herror
    · rw [PersonCall.body_getMembership_other s.1 hown] at ends
      rcases PersonRequest.ends_once.mp ends with ⟨-, m, hm, rfl, ht⟩ | ⟨-, ht, herror⟩
      · exact ⟨ht ▸ h, fun p => hreply hm⟩
      · exact refused_owned h ht herror

end

open CachingPersonClient in
/-- What a call leaves in the caches, and what it returns. -/
theorem PersonStep.owned {records : ℕ → Set Membership} {s t : CachingPersonClient × Unit}
    {a : PersonAction} (hstep : PersonStep (recordAnswers records) s a t)
    (h : s.1.Owned records) :
    (PersonAction.Alone s a → t.1.Owned records) ∧
      ∀ persNo memberships, a.call.person = some persNo → a.result = .ok memberships →
        ∀ m ∈ memberships, m ∈ records persNo := by
  obtain @⟨_, call, refused, result, ends⟩ := hstep
  cases call with
  | login persNo password =>
    refine ⟨fun halone => ?_, fun _ _ hperson => by cases hperson⟩
    rw [PersonCall.body_login] at ends
    rcases PersonRequest.ends_once.mp ends with ⟨hrefused, -, -, -, ht⟩ | ⟨-, ht, -⟩
    · rcases halone persNo password rfl hrefused with rfl | ⟨hmemberships, hbyPosition⟩
      · rw [ht]
        exact ⟨h.memberships, h.byPosition⟩
      · rw [ht]
        exact CachingPersonClient.Caches.of_empty hmemberships hbyPosition
    · exact ht ▸ h
  | logout =>
    refine ⟨fun _ => ?_, fun _ _ hperson => by cases hperson⟩
    rw [PersonCall.body_logout] at ends
    rcases PersonRequest.ends_once.mp ends with ⟨-, -, -, -, ht⟩ | ⟨-, ht, -⟩
    · rw [ht]
      exact CachingPersonClient.Caches.of_empty (fun _ => rfl) fun _ => rfl
    · exact ht ▸ h
  | changeConference confNo =>
    refine ⟨fun _ => ?_, fun _ _ hperson => by cases hperson⟩
    rw [PersonCall.body_changeConference] at ends
    rcases PersonRequest.ends_once.mp ends with ⟨-, -, -, -, ht⟩ | ⟨-, ht, -⟩
    · rw [ht]
      exact owned_changed h _ _
    · exact ht ▸ h
  | getMemberships persNo first noOfConfs wantReadRanges =>
    obtain ⟨howned, hreturns⟩ := getMemberships_owned h ends
    exact ⟨fun _ => howned, hreturns⟩
  | getMembership persNo confNo wantReadRanges =>
    obtain ⟨howned, hreturns⟩ := getMembership_owned h ends
    exact ⟨fun _ => howned, hreturns⟩

/-- **The caches are the current person's** in every run in which the logins that the server
does not refuse are for the person who is logged in, or made with nothing cached; and the
memberships that a call returns are those of the person named in it. -/
theorem Run.ownerCached {records : ℕ → Set Membership} {s : CachingPersonClient × Unit}
    (h : Run (PersonStep (recordAnswers records)) PersonAction.Alone (.init, ()) s) :
    s.1.Owned records ∧ ∀ a t, PersonStep (recordAnswers records) s a t →
      ∀ persNo memberships, a.call.person = some persNo → a.result = .ok memberships →
        ∀ m ∈ memberships, m ∈ records persNo := by
  have howned : s.1.Owned records := by
    apply h.invariant (P := fun s => s.1.Owned records)
    · exact CachingPersonClient.Caches.init 0
    · exact fun halone hstep hu => (hstep.owned hu).1 halone
  exact ⟨howned, fun a t hstep => (hstep.owned howned).2⟩

section

/-- Person 1 logs in and gets a membership. -/
private theorem run_fetch {P : CachingPersonClient × Unit → Prop}
    {records : ℕ → Set Membership} {allowed : CachingPersonClient × Unit → PersonAction → Prop}
    (hrecord : membershipAt 0 5 12 ∈ records 1)
    (hlogin : allowed (.init, ()) ⟨.login 1 [], false, .ok []⟩)
    (hget : ∀ s, allowed s ⟨.getMembership 1 5 false, false, .ok [membershipAt 0 5 12]⟩)
    (h : ∀ s : CachingPersonClient, s.persNo = 1 →
      s.memberships.dict.get? 5 = some (membershipAt 0 5 12) →
      ∃ u, Run (PersonStep (recordAnswers records)) allowed (s, ()) u ∧ P u) :
    ∃ u, Run (PersonStep (recordAnswers records)) allowed (.init, ()) u ∧ P u := by
  let first : CachingPersonClient := { CachingPersonClient.init with persNo := 1 }
  have hmiss : (PersonCall.getMembership 1 5 false).body first =
      .once (PersonCall.missed first) (.queryReadTexts11 1 5 0 0) fun membership t =>
        ([membership], PersonCall.stored 5 membership t) :=
    PersonCall.body_getMembership_own first 5
  refine Run.reach hlogin (.answered () () (PersonCall.body_login _ 1 []) trivial) ?_
  refine Run.reach (hget _) (.answered (membershipAt 0 5 12) () hmiss hrecord) ?_
  exact h _ rfl (by simp [PersonCall.stored])

/-- Person 1 logs in and gets a membership, and logs in once more. -/
theorem Run.ownerCached_relogin :
    ∃ s : CachingPersonClient × Unit, s.1.memberships.dict.get? 5 = some (membershipAt 0 5 12) ∧
      s.1.Owned (fun p => {_m | p = 1}) ∧
      ∀ a t, PersonStep (recordAnswers fun p => {_m | p = 1}) s a t →
        ∀ persNo memberships, a.call.person = some persNo → a.result = .ok memberships →
          ∀ m ∈ memberships, m ∈ ({_m | persNo = 1} : Set Membership) := by
  obtain ⟨s, hrun, hcached⟩ := @run_fetch
    (fun s => s.1.memberships.dict.get? 5 = some (membershipAt 0 5 12))
    (fun p => {_m | p = 1}) PersonAction.Alone rfl
    (fun _ _ _ _ => Or.inr ⟨fun _ => rfl, fun _ => rfl⟩) (fun _ _ _ hlogin => by cases hlogin)
    fun s hpersNo hcached => by
      refine Run.reach ?_ (.answered () () (PersonCall.body_login s 1 []) trivial) ?_
      · rintro persNo password ⟨⟩ -
        exact Or.inl hpersNo.symm
      · exact ⟨_, Run.refl, hcached⟩
  exact ⟨s, hcached, Run.ownerCached hrun⟩

/-- Person 2 logs in after person 1, without a logout, and gets the membership of person 1. -/
theorem Run.not_ownerCached :
    ¬ ∀ (records : ℕ → Set Membership) (s : CachingPersonClient × Unit),
      Run (PersonStep (recordAnswers records)) (fun _ _ => True) (.init, ()) s →
      s.1.Owned records ∧ ∀ a t, PersonStep (recordAnswers records) s a t →
        ∀ persNo memberships, a.call.person = some persNo → persNo = s.1.persNo →
          a.result = .ok memberships → ∀ m ∈ memberships, m ∈ records persNo := by
  intro hclaim
  obtain ⟨s, hrun, hpersNo, hcached⟩ := @run_fetch
    (fun s => s.1.persNo = 2 ∧ s.1.memberships.dict.get? 5 = some (membershipAt 0 5 12))
    (fun p => {_m | p = 1}) (fun _ _ => True) rfl trivial
    (fun _ => trivial) fun s _ hcached => by
      refine Run.reach trivial (.answered () () (PersonCall.body_login s 2 []) trivial) ?_
      exact ⟨_, Run.refl, rfl, hcached⟩
  have hstep : PersonStep (recordAnswers fun p => {_m | p = 1}) s
      ⟨.getMembership s.1.persNo 5 false, false, .ok [membershipAt 0 5 12]⟩
      (PersonCall.hit s.1, s.2) := by
    apply PersonStep.call
    rw [PersonCall.body_getMembership_own, hcached]
    exact ⟨rfl, rfl⟩
  have hmem := (hclaim _ s hrun).2 _ _ hstep s.1.persNo [membershipAt 0 5 12] rfl rfl rfl _
    (List.mem_singleton_self _)
  rw [hpersNo] at hmem
  cases hmem

end

end Pylyskom
