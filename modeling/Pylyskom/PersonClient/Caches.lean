import Pylyskom.PersonClient
import Pylyskom.Collections.Lists
import Mathlib.Data.List.Induction

/-!
# What the membership caches hold

A property of what is cached by conference, and one of what is cached by position, and how
the methods of the person client keep them.
-/

namespace Pylyskom.CachingPersonClient

/-- What is cached for a conference satisfies `P`, what is cached for a position `Q`. -/
structure Caches (P Q : ℕ → Membership → Prop) (client : CachingPersonClient) : Prop where
  memberships : ∀ {c : ℕ} {m : Membership}, client.memberships.dict.get? c = some m → P c m
  byPosition : ∀ {i : ℕ} {m : Membership}, client.membershipsByPosition.get? i = some m → Q i m

variable {P Q P' Q' : ℕ → Membership → Prop} {s : CachingPersonClient}

theorem get?_updateCachedMembershipsByPosition {ms : List Membership} {i : ℕ} {m : Membership}
    (h : (s.updateCachedMembershipsByPosition ms).membershipsByPosition.get? i = some m) :
    (m ∈ ms ∧ m.position = i) ∨ s.membershipsByPosition.get? i = some m := by
  unfold updateCachedMembershipsByPosition at h
  generalize s.membershipsByPosition = d at h ⊢
  induction ms generalizing d with
  | nil => exact Or.inr h
  | cons n ms ih =>
    rw [List.foldl_cons] at h
    rcases ih _ h with ⟨hm, hi⟩ | h
    · exact Or.inl ⟨List.mem_cons_of_mem _ hm, hi⟩
    · rw [Dict.get?_set] at h
      split_ifs at h with hi
      · obtain rfl := Option.some.inj h
        exact Or.inl ⟨List.mem_cons_self, hi.symm⟩
      · exact Or.inr h

@[simp] theorem get?_invalidateMembership (s : CachingPersonClient) (confNo c : ℕ) :
    (s.invalidateMembership confNo).memberships.dict.get? c =
      if c = confNo then none else s.memberships.dict.get? c := by
  simp [invalidateMembership]

/-- What is looked up after memberships have been cached: one of them that has the position. -/
theorem get?_updateCachedMembershipsByPosition_of_mem {ms : List Membership} {m : Membership}
    (hm : m ∈ ms) :
    ∃ n ∈ ms, n.position = m.position ∧
      (s.updateCachedMembershipsByPosition ms).membershipsByPosition.get? m.position = some n := by
  unfold updateCachedMembershipsByPosition
  generalize s.membershipsByPosition = d
  induction ms using List.reverseRecOn with
  | nil => cases hm
  | append_singleton ms last ih =>
    rw [List.foldl_append, List.foldl_cons, List.foldl_nil, Dict.get?_set]
    by_cases hlast : m.position = last.position
    · rw [if_pos hlast]
      exact ⟨last, by simp, hlast.symm, rfl⟩
    · rw [if_neg hlast]
      have hm : m ∈ ms := by
        rcases List.mem_append.mp hm with hm | hm
        · exact hm
        · obtain rfl := List.mem_singleton.mp hm
          exact absurd rfl hlast
      obtain ⟨n, hn, hpos, hget⟩ := ih hm
      exact ⟨n, List.mem_append_left _ hn, hpos, hget⟩

/-- A position that none of the memberships has is left as it is. -/
theorem get?_updateCachedMembershipsByPosition_of_forall_ne {ms : List Membership} {i : ℕ}
    (h : ∀ m ∈ ms, m.position ≠ i) :
    (s.updateCachedMembershipsByPosition ms).membershipsByPosition.get? i =
      s.membershipsByPosition.get? i := by
  unfold updateCachedMembershipsByPosition
  generalize s.membershipsByPosition = d
  induction ms generalizing d with
  | nil => rfl
  | cons m ms ih =>
    rw [List.foldl_cons, ih (fun n hn => h n (List.mem_cons_of_mem _ hn)), Dict.get?_set,
      if_neg (h m List.mem_cons_self).symm]

/-- What an invalidation does by position: nothing if the conference is not found there, and
otherwise it deletes one position of the conference. -/
theorem invalidateMembership_cases (s : CachingPersonClient) (confNo : ℕ) :
    (s.invalidateMembership confNo).membershipsByPosition = s.membershipsByPosition ∧
      (∀ i m, s.membershipsByPosition.get? i = some m → m.conference ≠ confNo) ∨
    ∃ pos n, s.membershipsByPosition.get? pos = some n ∧ n.conference = confNo ∧
      (s.invalidateMembership confNo).membershipsByPosition =
        s.membershipsByPosition.erase pos := by
  unfold invalidateMembership
  cases hfound : s.membershipsByPosition.items.find?
      (fun item => item.2.conference = confNo) with
  | none =>
    refine Or.inl ⟨rfl, fun i m hm hconf => ?_⟩
    have hnone := List.find?_eq_none.mp hfound _ (Dict.get?_eq_some_iff.mp hm)
    simp [hconf] at hnone
  | some item =>
    obtain ⟨pos, n⟩ := item
    have hconf : n.conference = confNo := by simpa using List.find?_some hfound
    have hn : s.membershipsByPosition.get? pos = some n :=
      Dict.get?_eq_some_iff.mpr (List.mem_of_find?_eq_some hfound)
    exact Or.inr ⟨pos, n, hn, hconf, rfl⟩

/-- An invalidation leaves fewer memberships by position. -/
theorem byPosition_of_invalidateMembership {confNo i : ℕ} {m : Membership}
    (h : (s.invalidateMembership confNo).membershipsByPosition.get? i = some m) :
    s.membershipsByPosition.get? i = some m := by
  rcases invalidateMembership_cases s confNo with ⟨heq, -⟩ | ⟨pos, n, -, -, heq⟩
  · rwa [heq] at h
  · rw [heq, Dict.get?_erase] at h
    split_ifs at h
    exact h

/-- If no conference is cached for two positions, then an invalidation leaves no membership
of its conference. -/
theorem conference_ne_of_invalidateMembership {confNo i : ℕ} {m : Membership}
    (hunique : ∀ {i j : ℕ} {m n : Membership}, s.membershipsByPosition.get? i = some m →
      s.membershipsByPosition.get? j = some n → m.conference = n.conference → i = j)
    (h : (s.invalidateMembership confNo).membershipsByPosition.get? i = some m) :
    m.conference ≠ confNo := by
  have hold := byPosition_of_invalidateMembership h
  rcases invalidateMembership_cases s confNo with ⟨-, hnone⟩ | ⟨pos, n, hn, hconf, heq⟩
  · exact hnone i m hold
  · rintro rfl
    obtain rfl := hunique hn hold hconf
    rw [heq] at h
    simp at h

@[simp] theorem persNo_changed (prevConfNo confNo : ℕ) :
    (PersonCall.changed prevConfNo confNo s).persNo = s.persNo := by
  unfold PersonCall.changed
  split <;> rfl

/-- A change of conference leaves the other memberships. -/
theorem memberships_of_changed {prevConfNo confNo c : ℕ} {m : Membership}
    (h : (PersonCall.changed prevConfNo confNo s).memberships.dict.get? c = some m) :
    s.memberships.dict.get? c = some m ∧ (prevConfNo ≠ 0 → c ≠ prevConfNo) := by
  unfold PersonCall.changed at h
  by_cases hprev : prevConfNo ≠ 0
  · rw [if_pos hprev, get?_invalidateMembership] at h
    split_ifs at h with hc
    exact ⟨h, fun _ => hc⟩
  · rw [if_neg hprev] at h
    exact ⟨h, fun hzero => absurd hzero hprev⟩

theorem byPosition_of_changed {prevConfNo confNo i : ℕ} {m : Membership}
    (hunique : ∀ {i j : ℕ} {m n : Membership}, s.membershipsByPosition.get? i = some m →
      s.membershipsByPosition.get? j = some n → m.conference = n.conference → i = j)
    (h : (PersonCall.changed prevConfNo confNo s).membershipsByPosition.get? i = some m) :
    s.membershipsByPosition.get? i = some m ∧ (prevConfNo ≠ 0 → m.conference ≠ prevConfNo) := by
  unfold PersonCall.changed at h
  by_cases hprev : prevConfNo ≠ 0
  · rw [if_pos hprev] at h
    have hne := conference_ne_of_invalidateMembership
      (s := { s with currentConferenceNo := confNo }) hunique h
    exact ⟨byPosition_of_invalidateMembership h, fun _ => hne⟩
  · rw [if_neg hprev] at h
    exact ⟨h, fun hzero => absurd hzero hprev⟩

namespace Caches

theorem imp (h : s.Caches P Q) (hP : ∀ c m, P c m → P' c m) (hQ : ∀ i m, Q i m → Q' i m) :
    s.Caches P' Q' :=
  ⟨fun hm => hP _ _ (h.memberships hm), fun hm => hQ _ _ (h.byPosition hm)⟩

/-- Where nothing is cached, what is cached satisfies anything. -/
theorem of_empty (hmemberships : ∀ c, s.memberships.dict.get? c = none)
    (hbyPosition : ∀ i, s.membershipsByPosition.get? i = none) : s.Caches P Q := by
  refine ⟨fun {c m} hm => ?_, fun {i m} hm => ?_⟩
  · rw [hmemberships] at hm
    cases hm
  · rw [hbyPosition] at hm
    cases hm

theorem init (persNo : ℕ) : Caches P Q { CachingPersonClient.init with persNo } :=
  of_empty (fun _ => rfl) fun _ => rfl

/-- What is fetched by position is cached as well. -/
theorem update (h : s.Caches P Q) {ms : List Membership} (hms : ∀ m ∈ ms, Q m.position m) :
    (s.updateCachedMembershipsByPosition ms).Caches P Q := by
  refine ⟨h.memberships, fun {i m} hm => ?_⟩
  rcases get?_updateCachedMembershipsByPosition hm with ⟨hmem, rfl⟩ | hm
  · exact hms m hmem
  · exact h.byPosition hm

theorem hit (h : s.Caches P Q) : (PersonCall.hit s).Caches P Q := ⟨h.memberships, h.byPosition⟩

theorem missed (h : s.Caches P Q) : (PersonCall.missed s).Caches P Q :=
  ⟨h.memberships, h.byPosition⟩

theorem stored (h : s.Caches P Q) {c : ℕ} {m : Membership} (hm : P c m) :
    (PersonCall.stored c m s).Caches P Q := by
  refine ⟨fun {k n} hn => ?_, h.byPosition⟩
  exact Cache.of_get?_setitem hm h.memberships hn

/-- An invalidation leaves fewer memberships. -/
theorem invalidate (h : s.Caches P Q) (confNo : ℕ) :
    (s.invalidateMembership confNo).Caches (fun c m => c ≠ confNo ∧ P c m) Q := by
  refine ⟨fun {c m} hm => ?_, fun hm => h.byPosition (byPosition_of_invalidateMembership hm)⟩
  rw [get?_invalidateMembership] at hm
  split_ifs at hm with hc
  exact ⟨hc, h.memberships hm⟩

/-- What is found by position is cached. -/
theorem found (h : s.Caches P Q) {first noOfConfs : ℕ} {ms : List Membership}
    (hms : s.getCachedMembershipsByPosition first noOfConfs = some ms) :
    List.Forall₂ Q (List.range' first noOfConfs) ms :=
  (getCachedMembershipsByPosition_eq_some.mp hms).imp fun _ _ hm => h.byPosition hm

end Caches

end Pylyskom.CachingPersonClient
