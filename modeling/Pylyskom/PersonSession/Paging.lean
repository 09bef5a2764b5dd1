import Pylyskom.PersonSession

/-!
# Paging through the memberships of another person

The session passes on which window it wants, but for a person who is not logged in the
client asks for the window at the start. So every page is the first one.
-/

namespace Pylyskom

/-- Made from a membership, with the names that were found for its numbers. -/
def KomMembership.Shows (persNo : ℕ) (m : Membership) (shown : KomMembership) : Prop :=
  ∃ addedBy conference, shown = .ofMembership persNo m addedBy conference ∧
    conference.confNo = m.conference ∧ ∀ person ∈ addedBy, person.persNo = m.addedBy

/-- How the server replies while a person has the memberships `ms`: with the window that it
is asked for, and with the conference of a number if there is one, as for those of `ms`. -/
def pageReplies (person : ℕ) (ms : List Membership) :
    (req : PersonRequest) → Except Exn req.Reply → Prop
  | .getMembership11 p first noOfConfs _ _, reply =>
    p = person → reply = .ok ((ms.drop first).take noOfConfs)
  | .getUconfStat no, reply =>
    (∃ uconf, reply = .ok uconf) ∨
      no ∉ ms.map Membership11.conference ∧ ∃ error : ServerError,
        reply = .error (.serverError error) ∧
        (error.cls = .undefinedConference ∨ error.cls = .conferenceZero)
  | _, _ => True

/-- While a method waits the client may change in any way, but the person does not log in. -/
def PageServed (person : ℕ) (ms : List Membership) (req : PersonRequest)
    (_ : CachingPersonClient × Unit) (reply : Except Exn req.Reply)
    (t : CachingPersonClient × Unit) : Prop :=
  t.1.persNo ≠ person ∧ pageReplies person ms req reply

/-- A call for each of `first`, `first + noOfConfs` and so on until there are no more. At most
`calls` of them are made, none raises an exception, and the pages together show `rest`. -/
def Enumerates (person : ℕ) (ms : List Membership) (noOfConfs : ℕ)
    (getPage : ℕ → PersonM (List KomMembership × Bool)) :
    (calls first : ℕ) → CachingPersonClient → (rest : List Membership) → Prop
  | 0, _, _, _ => False
  | calls + 1, first, s, rest =>
    ∀ result t, (getPage first s).Ends (PageServed person ms) () result t →
      ∃ page hasMore now later, result = .ok (page, hasMore) ∧ rest = now ++ later ∧
        List.Forall₂ (KomMembership.Shows person) now page ∧
        if hasMore = true then
          Enumerates person ms noOfConfs getPage calls (first + noOfConfs) t.1 later
        else later = []

section

variable {person : ℕ} {ms : List Membership}

/-- A method ensures this while the person has the memberships `ms` and is not logged in. -/
abbrev PageEnsures {α : Type} (person : ℕ) (ms : List Membership) (m : PersonM α)
    (Q : Except Exn α → Prop) : Prop :=
  Ensures (PageServed person ms) (fun s => s.persNo ≠ person) m Q

theorem ensures_uconference (no : ℕ) :
    PageEnsures person ms (CachingPersonClient.uconference no)
      (pageReplies person ms (.getUconfStat no)) := by
  intro s w result t hs hends
  unfold CachingPersonClient.uconference at hends
  cases hpresent : s.uconferences.dict.get? no with
  | some uconf =>
    rw [Cache.getitem_hit hpresent] at hends
    obtain ⟨rfl, rfl⟩ := hends
    exact ⟨hs, Or.inl ⟨uconf, rfl⟩⟩
  | none =>
    rw [Cache.getitem_miss hpresent] at hends
    have hrequest : PageEnsures person ms (CachingPersonClient.request (.getUconfStat no))
        (pageReplies person ms (.getUconfStat no)) :=
      Ensures.request fun _ _ _ _ hserved => hserved
    refine hrequest.bind (fun uconf _ => ?_) (fun _ he => he) _ w result t ?_ hends
    · refine Ensures.andThen (Ensures.modify fun _ hs => hs) fun _ _ => ?_
      exact Ensures.pure (Or.inl ⟨uconf, rfl⟩)
    · exact hs

theorem ensures_getUconference {no : ℕ} (hno : no ∈ ms.map Membership11.conference) :
    PageEnsures person ms (getUconference no)
      (Yields fun conference => conference.confNo = no) := by
  refine Ensures.bind (ensures_uconference no) (fun _ _ => Ensures.pure rfl) ?_
  rintro e (⟨_, ⟨⟩⟩ | ⟨hnone, -⟩)
  exact hnone hno

theorem PersonSession.ensures_getPerson (persNo : ℕ) :
    PageEnsures person ms (getPerson persNo) (Yields fun found => found.persNo = persNo) := by
  have hname : PageEnsures person ms (confName persNo) (Yields fun _ => True) := by
    refine Ensures.tryCatch (P := fun _ => True) ?_ (fun _ _ => trivial) fun _ _ => ?_
    · exact Ensures.bind (ensures_uconference persNo) (fun _ _ => Ensures.pure trivial)
        fun _ _ => trivial
    · exact Ensures.pure trivial
  exact hname.andThen fun _ _ => Ensures.pure rfl

theorem AioPersonSession.ensures_getPersonName (persNo : ℕ) :
    PageEnsures person ms (getPersonName persNo) (Yields fun found => found.persNo = persNo) := by
  refine Ensures.andThen (R := fun _ => True) ?_ fun _ _ => Ensures.pure rfl
  refine Ensures.tryCatch (P := fun reply => ∀ e, reply = .error e → ∃ error : ServerError,
      e = .serverError error ∧ (error.cls = .undefinedConference ∨ error.cls = .conferenceZero))
    ?_ (fun _ _ => trivial) ?_
  · refine Ensures.bind (ensures_uconference persNo) (fun _ _ => Ensures.pure ?_) ?_
    · intro e he
      cases he
    · rintro e (⟨_, ⟨⟩⟩ | ⟨-, error, hreply, hcls⟩) _ ⟨⟩
      exact ⟨error, Except.error.inj hreply, hcls⟩
  · intro e he
    obtain ⟨error, rfl, hcls⟩ := he e rfl
    change PageEnsures person ms (if _ then _ else if _ then _ else _) _
    by_cases hundefined : error.cls = .undefinedConference
    · rw [if_pos hundefined]
      exact Ensures.pure trivial
    · rw [if_neg hundefined, if_pos (hcls.resolve_left hundefined)]
      exact Ensures.pure trivial

theorem PersonSession.ensures_createKomMembership {m : Membership} (hm : m ∈ ms) (persNo : ℕ) :
    PageEnsures person ms (createKomMembership persNo m)
      (Yields (KomMembership.Shows persNo m)) := by
  have hno := List.mem_map_of_mem (f := Membership11.conference) hm
  refine (ensures_getPerson m.addedBy).andThen fun addedBy haddedBy => ?_
  refine (ensures_getUconference hno).andThen fun conference hconference => ?_
  refine Ensures.pure ⟨some addedBy, conference, rfl, hconference, ?_⟩
  rintro _ ⟨⟩
  exact haddedBy

theorem AioPersonSession.ensures_createKomMembership {m : Membership} (hm : m ∈ ms)
    (persNo : ℕ) :
    PageEnsures person ms (createKomMembership persNo m)
      (Yields (KomMembership.Shows persNo m)) := by
  have hno := List.mem_map_of_mem (f := Membership11.conference) hm
  unfold createKomMembership
  by_cases hzero : m.addedBy = 0
  · rw [if_pos hzero]
    refine (ensures_getUconference hno).andThen fun conference hconference => ?_
    refine Ensures.pure ⟨none, conference, rfl, hconference, ?_⟩
    rintro _ ⟨⟩
  · rw [if_neg hzero]
    refine (ensures_getPersonName m.addedBy).andThen fun addedBy haddedBy => ?_
    refine (ensures_getUconference hno).andThen fun conference hconference => ?_
    refine Ensures.pure ⟨some addedBy, conference, rfl, hconference, ?_⟩
    rintro _ ⟨⟩
    exact haddedBy

/-- The client asks for the window at the start, whatever `first` is. -/
theorem ensures_getMemberships (first n : ℕ) :
    PageEnsures person ms (CachingPersonClient.getMemberships person first n false)
      (Yields fun memberships => memberships = ms.take n) := by
  intro s w result t hs hends
  have hbody : CachingPersonClient.getMemberships person first n false s =
      .once s (.getMembership11 person 0 n 0 0) fun memberships t => (memberships, t) :=
    PersonCall.body_getMemberships_other s (Ne.symm hs) first n
  rw [hbody] at hends
  rcases Suspended.ends_once.mp hends with ⟨memberships, u, ⟨hu, hreply⟩, rfl, rfl⟩ |
    ⟨e, ⟨-, hreply⟩, -⟩
  · exact ⟨hu, Except.ok.inj (hreply rfl)⟩
  · cases hreply rfl

/-- **Every page is the first one**, and there are said to be more if it is full. -/
theorem ensures_getMembershipsWith {getMembership : ℕ → ℕ → PersonM KomMembership}
    {create : ℕ → Membership → PersonM KomMembership}
    (hcreate : ∀ m ∈ ms,
      PageEnsures person ms (create person m) (Yields (KomMembership.Shows person m)))
    (first n : ℕ) :
    PageEnsures person ms (getMembershipsWith getMembership create person first n false true)
      (Yields fun page => List.Forall₂ (KomMembership.Shows person) (ms.take n) page.1 ∧
        page.2 = decide (n ≤ ms.length)) := by
  refine (ensures_getMemberships first n).andThen ?_
  rintro _ rfl
  have hshown : (ms.take n).filter (fun m => true || !MembershipType.passive m.type) =
      ms.take n := by simp
  rw [hshown]
  refine Ensures.andThen (Ensures.mapM fun m hm => hcreate m (List.mem_of_mem_take hm)) ?_
  refine fun page hpage => Ensures.pure ⟨hpage, ?_⟩
  rw [List.length_take, ← decide_not]
  apply decide_eq_decide.mpr
  omega

/-- A request gets some reply. -/
theorem exists_pageServed (person : ℕ) (ms : List Membership) (req : PersonRequest)
    (s : CachingPersonClient × Unit) : ∃ reply t, PageServed person ms req s reply t := by
  have hother : person + 1 ≠ person := by omega
  have hreply : ∃ reply, pageReplies person ms req reply := by
    cases req with
    | getMembership11 p first noOfConfs =>
      exact ⟨.ok ((ms.drop first).take noOfConfs), fun _ => rfl⟩
    | getUconfStat no => exact ⟨.ok ⟨[], .replicate 8 false, 0, 0⟩, Or.inl ⟨_, rfl⟩⟩
    | login | logout | changeConference | queryReadTexts11 | getUnreadConfs
    | getNegativeUconfStat =>
      exact ⟨.error (.builtinError .connectionError), trivial⟩
  obtain ⟨reply, hreply⟩ := hreply
  exact ⟨reply, ({ CachingPersonClient.init with persNo := person + 1 }, ()), hother, hreply⟩

section

variable {n : ℕ} {getPage : ℕ → PersonM (List KomMembership × Bool)}
  (hpage : ∀ first, PageEnsures person ms (getPage first)
    (Yields fun page => List.Forall₂ (KomMembership.Shows person) (ms.take n) page.1 ∧
      page.2 = decide (n ≤ ms.length)))

include hpage

/-- If the first page is full, then there are always said to be more. -/
theorem not_enumerates (hn : n ≤ ms.length) {calls first : ℕ} {s : CachingPersonClient}
    {rest : List Membership} (hs : s.persNo ≠ person) :
    ¬ Enumerates person ms n getPage calls first s rest := by
  induction calls generalizing first s rest with
  | zero => exact id
  | succ calls ih =>
    intro h
    obtain ⟨result, t, hends⟩ :=
      Suspended.exists_ends (exists_pageServed person ms) (getPage first s) ()
    obtain ⟨page, hasMore, now, later, rfl, -, -, hlater⟩ := h result t hends
    obtain ⟨ht, -, hmore⟩ := hpage first s () _ t hs hends
    have hmore : hasMore = true := hmore.trans (decide_eq_true hn)
    rw [if_pos hmore] at hlater
    exact ih ht hlater

/-- If the first page is not full, then it is the only one. -/
theorem enumerates_one (hn : ms.length < n) {s : CachingPersonClient} (hs : s.persNo ≠ person) :
    Enumerates person ms n getPage 1 0 s ms := by
  intro result t hends
  obtain ⟨-, hresult⟩ := hpage 0 s () result t hs hends
  cases result with
  | error e => exact hresult.elim
  | ok page =>
    obtain ⟨hshown, hmore⟩ := hresult
    have hmore : page.2 = false := by
      rw [hmore]
      exact decide_eq_false (by omega)
    rw [List.take_of_length_le (by omega)] at hshown
    refine ⟨page.1, page.2, ms, [], rfl, (List.append_nil ms).symm, hshown, ?_⟩
    rw [hmore]
    rfl

theorem enumerates_iff {s : CachingPersonClient} (hs : s.persNo ≠ person) :
    (∃ calls, Enumerates person ms n getPage calls 0 s ms) ↔ ms.length < n := by
  constructor
  · rintro ⟨calls, h⟩
    by_contra hn
    exact not_enumerates hpage (by omega) hs h
  · exact fun hn => ⟨1, enumerates_one hpage hn hs⟩

end

/-- **Paging through the memberships of another person** stops with all of them if and only
if there are fewer than fit on a page, in both sessions. -/
theorem enumeratesMemberships_iff {n : ℕ} {s : CachingPersonClient} (hother : s.persNo ≠ person) :
    ((∃ calls, Enumerates person ms n
      (fun first => PersonSession.getMemberships person first n false true) calls 0 s ms) ↔
      ms.length < n) ∧
    ((∃ calls, Enumerates person ms n
      (fun first => AioPersonSession.getMemberships person first n false true) calls 0 s ms) ↔
      ms.length < n) := by
  constructor
  · refine enumerates_iff (fun first => ?_) hother
    exact ensures_getMembershipsWith
      (fun m hm => PersonSession.ensures_createKomMembership hm person) first n
  · refine enumerates_iff (fun first => ?_) hother
    exact ensures_getMembershipsWith
      (fun m hm => AioPersonSession.ensures_createKomMembership hm person) first n

end

/-- Person 7 pages through the one membership of person 8, with two on a page. -/
theorem enumeratesMemberships_iff_one :
    (∃ calls, Enumerates 8 [membershipAt 0 5 12] 2
      (fun first => PersonSession.getMemberships 8 first 2 false true) calls 0
      { CachingPersonClient.init with persNo := 7 } [membershipAt 0 5 12]) ∧
    ∃ calls, Enumerates 8 [membershipAt 0 5 12] 2
      (fun first => AioPersonSession.getMemberships 8 first 2 false true) calls 0
      { CachingPersonClient.init with persNo := 7 } [membershipAt 0 5 12] := by
  have hother : ({ CachingPersonClient.init with persNo := 7 } : CachingPersonClient).persNo ≠ 8 :=
    by decide
  have hiff := @enumeratesMemberships_iff 8 [membershipAt 0 5 12] 2 _ hother
  exact ⟨hiff.1.mpr (by decide), hiff.2.mpr (by decide)⟩

/-- With one on a page there are always said to be more. -/
theorem not_enumeratesMemberships :
    ¬ ∀ (person : ℕ) (ms : List Membership) (n : ℕ) (s : CachingPersonClient), 1 ≤ n →
      s.persNo ≠ person → ∃ calls, Enumerates person ms n
        (fun first => PersonSession.getMemberships person first n false true) calls 0 s ms := by
  intro hclaim
  have hother : ({ CachingPersonClient.init with persNo := 7 } : CachingPersonClient).persNo ≠ 8 :=
    by decide
  obtain ⟨calls, h⟩ := hclaim 8 [membershipAt 0 5 12] 1 _ (by decide) hother
  refine not_enumerates (fun first => ?_) (by decide) hother h
  exact ensures_getMembershipsWith
    (fun m hm => PersonSession.ensures_createKomMembership hm 8) first 1

end Pylyskom
