import Pylyskom.PersonClient.Positions

/-!
# Invalidations after reorderings

A membership list can be reordered without any message. A conference that is fetched before
and after is then cached for two positions, and `_invalidate_membership`, which stops at the
first position that it finds, leaves one of them.
-/

namespace Pylyskom

namespace CachingPersonClient

/-- `_invalidate_membership` removes every record of a conference, and leaves the others. -/
structure Removes (client : CachingPersonClient) (confNo : ℕ) : Prop where
  memberships : ∀ c m, (client.invalidateMembership confNo).memberships.dict.get? c = some m ↔
    client.memberships.dict.get? c = some m ∧ m.conference ≠ confNo
  byPosition : ∀ i m,
    (client.invalidateMembership confNo).membershipsByPosition.get? i = some m ↔
      client.membershipsByPosition.get? i = some m ∧ m.conference ≠ confNo

/-- A conference is cached for one position at most. -/
def CachedOnce (client : CachingPersonClient) (confNo : ℕ) : Prop :=
  ∀ i j m n, client.membershipsByPosition.get? i = some m → m.conference = confNo →
    client.membershipsByPosition.get? j = some n → n.conference = confNo → i = j

variable {s : CachingPersonClient} {confNo : ℕ}

/-- **One deletion is enough** exactly if the conference is cached for one position. -/
theorem removes_iff_cachedOnce
    (hconf : ∀ c m, s.memberships.dict.get? c = some m → m.conference = c) :
    s.Removes confNo ↔ s.CachedOnce confNo := by
  constructor
  · intro h i j m n hm hmconf hn hnconf
    rcases invalidateMembership_cases s confNo with ⟨-, hnone⟩ | ⟨pos, -, -, -, heq⟩
    · exact absurd hmconf (hnone i m hm)
    · -- What is not at the position that is deleted would be left.
      have hpos : ∀ k p, s.membershipsByPosition.get? k = some p → p.conference = confNo →
          k = pos := by
        intro k p hp hpconf
        by_contra hne
        have hleft : (s.invalidateMembership confNo).membershipsByPosition.get? k = some p := by
          rw [heq, Dict.get?_erase, if_neg hne, hp]
        exact ((h.byPosition k p).mp hleft).2 hpconf
      rw [hpos i m hm hmconf, hpos j n hn hnconf]
  · intro honce
    refine ⟨fun c m => ?_, fun i m => ?_⟩
    · rw [get?_invalidateMembership]
      by_cases hc : c = confNo
      · subst hc
        rw [if_pos rfl]
        simpa using hconf c m
      · rw [if_neg hc]
        exact ⟨fun hm => ⟨hm, hconf c m hm ▸ hc⟩, fun hm => hm.1⟩
    · rcases invalidateMembership_cases s confNo with ⟨heq, hnone⟩ | ⟨pos, n, hn, hnconf, heq⟩
      · rw [heq]
        exact ⟨fun hm => ⟨hm, hnone i m hm⟩, fun hm => hm.1⟩
      · rw [heq, Dict.get?_erase]
        by_cases hi : i = pos
        · subst hi
          rw [if_pos rfl, hn]
          constructor
          · intro hm
            cases hm
          · rintro ⟨hm, hne⟩
            obtain rfl := Option.some.inj hm
            exact absurd hnconf hne
        · rw [if_neg hi]
          refine ⟨fun hm => ⟨hm, fun hmconf => hi (honce i pos m n hm hmconf hn hnconf)⟩, ?_⟩
          exact fun hm => hm.1

/-- Fewer cached positions are still one at most. -/
theorem CachedOnce.of_byPosition {t : CachingPersonClient} (h : s.CachedOnce confNo)
    (hfewer : ∀ i m, t.membershipsByPosition.get? i = some m →
      s.membershipsByPosition.get? i = some m) : t.CachedOnce confNo :=
  fun i j m n hm hmconf hn hnconf =>
    h i j m n (hfewer i m hm) hmconf (hfewer j n hn) hnconf

end CachingPersonClient

/-! ## Reorderings and fetches -/

namespace ListServer

/-- The list is reordered, and no message is sent. -/
def reorder (server : ListServer) (confs : List Membership) : ListServer :=
  { server with confs }

/-- The memberships that are sent for a window. -/
def window (server : ListServer) (first noOfConfs : ℕ) : List Membership :=
  (server.listed.drop first).take noOfConfs

end ListServer

/-- A request for memberships of a person, without read ranges. -/
def PersonRequest.Asks (persNo : ℕ) : PersonRequest → Prop
  | getMembership11 person _ _ 0 _ => person = persNo
  | queryReadTexts11 person _ 0 _ => person = persNo
  | _ => False

/-- The person's memberships are sent as they are listed, and any other request is answered
in any way. -/
def ListServer.replies (persNo : ℕ) (req : PersonRequest) (server : ListServer)
    (reply : req.Reply) (server' : ListServer) : Prop :=
  server' = server ∧ (req.Asks persNo → server.answers persNo req reply)

/-- The calls that fetch memberships. -/
def PersonCall.Fetches : PersonCall → Prop
  | getMemberships .. | getMembership .. => True
  | _ => False

inductive ReorderAction : Type
  | reorder (confs : List Membership)
  | call (action : PersonAction)
  | invalidate (confNo : ℕ)

/-- The server reorders the list, or the client fetches or invalidates memberships. -/
inductive ReorderStep (persNo : ℕ) :
    CachingPersonClient × ListServer → ReorderAction → CachingPersonClient × ListServer → Prop
  | reorder {s : CachingPersonClient × ListServer} {confs : List Membership}
      (perm : confs.Perm s.2.confs) :
      ReorderStep persNo s (.reorder confs) (s.1, s.2.reorder confs)
  | call {s t : CachingPersonClient × ListServer} {action : PersonAction}
      (fetches : action.call.Fetches)
      (step : PersonStep (ListServer.replies persNo) s action t) :
      ReorderStep persNo s (.call action) t
  | invalidate {s : CachingPersonClient × ListServer} (confNo : ℕ) :
      ReorderStep persNo s (.invalidate confNo) (s.1.invalidateMembership confNo, s.2)

/-- A window that is fetched from the server does not bring a membership of a conference
that is cached for a position outside the window. -/
def ReorderAction.BringsNoCopy (confNo : ℕ) (s : CachingPersonClient × ListServer) :
    ReorderAction → Prop
  | call ⟨.getMemberships person first noOfConfs false, false, _⟩ =>
    person = s.1.persNo → s.1.getCachedMembershipsByPosition first noOfConfs = none →
      (∃ m ∈ s.2.window first noOfConfs, m.conference = confNo) →
      ∀ i m, s.1.membershipsByPosition.get? i = some m → m.conference = confNo →
        first ≤ i ∧ i < first + noOfConfs
  | _ => True

/-! ## What a step does -/

section

variable {persNo confNo : ℕ} {s t : CachingPersonClient × ListServer}

/-- A request whose reply the client does not keep. -/
theorem PersonRequest.ends_once_same {client : CachingPersonClient} {server : ListServer}
    {req : PersonRequest} {f : req.Reply → List Membership} {refused : Bool}
    {result : Except Exn (List Membership)}
    (ends : (Suspended.once client req fun reply client => (f reply, client)).Ends
      (Served (ListServer.replies persNo) refused) server result t) : t = (client, server) := by
  rcases PersonRequest.ends_once.mp ends with ⟨-, value, ⟨hserver, -⟩, -, hclient⟩ | ⟨-, ht, -⟩
  · exact Prod.ext hclient hserver
  · exact ht

/-- A call that leaves what is cached by position, and adds at most the membership of its
conference to what is cached by conference. -/
structure ReorderStep.Leaves (s : CachingPersonClient × ListServer) (action : PersonAction)
    (t : CachingPersonClient × ListServer) : Prop where
  byPosition : t.1.membershipsByPosition = s.1.membershipsByPosition
  memberships : ∀ c m, t.1.memberships.dict.get? c = some m →
    s.1.memberships.dict.get? c = some m ∨ m.conference = c
  bringsNoCopy : ∀ confNo, (ReorderAction.call action).BringsNoCopy confNo s

/-- A call that caches the window that the server has sent. -/
def ReorderStep.CachesWindow (s : CachingPersonClient × ListServer) (action : PersonAction)
    (t : CachingPersonClient × ListServer) : Prop :=
  ∃ first noOfConfs result,
    action = ⟨.getMemberships s.1.persNo first noOfConfs false, false, result⟩ ∧
    s.1.getCachedMembershipsByPosition first noOfConfs = none ∧
    t.1 = s.1.updateCachedMembershipsByPosition (s.2.window first noOfConfs)

namespace ReorderStep

theorem leaves_self {action : PersonAction}
    (h : ∀ confNo, (ReorderAction.call action).BringsNoCopy confNo s) : Leaves s action s :=
  ⟨rfl, fun _ _ hm => Or.inl hm, h⟩

theorem getMemberships_cases {first noOfConfs : ℕ} {refused : Bool}
    {result : Except Exn (List Membership)}
    (ends : ((PersonCall.getMemberships s.1.persNo first noOfConfs false).body s.1).Ends
      (PersonRequest.Served (ListServer.replies s.1.persNo) refused) s.2 result t) :
    t.2 = s.2 ∧ t.1.persNo = s.1.persNo ∧
      (Leaves s ⟨.getMemberships s.1.persNo first noOfConfs false, refused, result⟩ t ∨
        CachesWindow s ⟨.getMemberships s.1.persNo first noOfConfs false, refused, result⟩ t) := by
  rw [PersonCall.body_getMemberships_own] at ends
  cases hcached : s.1.getCachedMembershipsByPosition first noOfConfs with
  | some ms =>
    rw [hcached] at ends
    obtain ⟨-, rfl⟩ := ends
    refine ⟨rfl, rfl, Or.inl (leaves_self fun confNo => ?_)⟩
    cases refused with
    | true => trivial
    | false =>
      intro _ hnone
      rw [hcached] at hnone
      cases hnone
  | none =>
    rw [hcached] at ends
    rcases PersonRequest.ends_once.mp ends with
      ⟨rfl, ms, ⟨hserver, hreply⟩, -, hclient⟩ | ⟨rfl, rfl, -⟩
    · obtain ⟨-, rfl⟩ := hreply rfl
      have hpersNo : t.1.persNo = s.1.persNo := by
        rw [hclient]
        rfl
      exact ⟨hserver, hpersNo, Or.inr ⟨first, noOfConfs, result, rfl, hcached, hclient⟩⟩
    · exact ⟨rfl, rfl, Or.inl (leaves_self fun _ => trivial)⟩

theorem getMembership_leaves {c : ℕ} {refused : Bool} {result : Except Exn (List Membership)}
    (ends : ((PersonCall.getMembership s.1.persNo c false).body s.1).Ends
      (PersonRequest.Served (ListServer.replies s.1.persNo) refused) s.2 result t) :
    t.2 = s.2 ∧ t.1.persNo = s.1.persNo ∧
      Leaves s ⟨.getMembership s.1.persNo c false, refused, result⟩ t := by
  rcases PersonCall.ends_getMembership_own ends with ⟨m, -, -, rfl⟩ | ends
  · exact ⟨rfl, rfl, rfl, fun _ _ hm => Or.inl hm, fun _ => trivial⟩
  · rcases PersonRequest.ends_once.mp ends with
      ⟨-, m, ⟨hserver, hreply⟩, -, hclient⟩ | ⟨-, rfl, -⟩
    · obtain ⟨-, -, hconf⟩ := hreply rfl
      refine ⟨hserver, by rw [hclient]; rfl, by rw [hclient]; rfl, fun k n hn => ?_,
        fun _ => trivial⟩
      rw [hclient] at hn
      exact Cache.of_get?_setitem
        (P := fun k n => s.1.memberships.dict.get? k = some n ∨ n.conference = k)
        (Or.inr hconf) Or.inl hn
    · exact ⟨rfl, rfl, rfl, fun _ _ hm => Or.inl hm, fun _ => trivial⟩

/-- What a call that fetches memberships can do. -/
theorem call_cases {action : PersonAction} (hpersNo : s.1.persNo = persNo)
    (fetches : action.call.Fetches)
    (step : PersonStep (ListServer.replies persNo) s action t) :
    t.2 = s.2 ∧ t.1.persNo = s.1.persNo ∧ (Leaves s action t ∨ CachesWindow s action t) := by
  subst hpersNo
  cases step with
  | @call _ call refused result ends =>
    cases call with
    | login | logout | changeConference => cases fetches
    | getMemberships person first noOfConfs wantReadRanges =>
      cases wantReadRanges with
      | true =>
        rw [PersonCall.body_getMemberships_ranges] at ends
        obtain rfl := PersonRequest.ends_once_same ends
        exact ⟨rfl, rfl, Or.inl (leaves_self fun _ => trivial)⟩
      | false =>
        by_cases hown : person = s.1.persNo
        · subst hown
          exact getMemberships_cases ends
        · rw [PersonCall.body_getMemberships_other s.1 hown] at ends
          obtain rfl := PersonRequest.ends_once_same ends
          refine ⟨rfl, rfl, Or.inl (leaves_self fun confNo => ?_)⟩
          cases refused with
          | true => trivial
          | false => exact fun heq => absurd heq hown
    | getMembership person c wantReadRanges =>
      cases wantReadRanges with
      | true =>
        rw [PersonCall.body_getMembership_ranges] at ends
        obtain rfl := PersonRequest.ends_once_same ends
        exact ⟨rfl, rfl, Or.inl (leaves_self fun _ => trivial)⟩
      | false =>
        by_cases hown : person = s.1.persNo
        · subst hown
          obtain ⟨hserver, hclient, hleaves⟩ := getMembership_leaves ends
          exact ⟨hserver, hclient, Or.inl hleaves⟩
        · rw [PersonCall.body_getMembership_other s.1 hown] at ends
          obtain rfl := PersonRequest.ends_once_same ends
          exact ⟨rfl, rfl, Or.inl (leaves_self fun _ => trivial)⟩

end ReorderStep

/-! ## What a run preserves -/

namespace ListServer

variable {server : ListServer} {first noOfConfs : ℕ}

theorem position_of_listed {i : ℕ} {m : Membership} (h : server.listed[i]? = some m) :
    m.position = i := by
  rw [listed, List.getElem?_mapIdx, Option.map_eq_some_iff] at h
  obtain ⟨n, -, rfl⟩ := h
  rfl

theorem exists_mem_listed {i : ℕ} (h : i < server.confs.length) :
    ∃ m ∈ server.listed, m.position = i := by
  have hlt : i < server.listed.length := by simpa [listed] using h
  have hi := List.getElem?_eq_getElem hlt
  exact ⟨server.listed[i], List.mem_of_getElem? hi, position_of_listed hi⟩

/-- A window holds what is listed at its positions. -/
theorem mem_window {m : Membership} :
    m ∈ server.window first noOfConfs ↔
      m ∈ server.listed ∧ first ≤ m.position ∧ m.position < first + noOfConfs := by
  unfold window
  constructor
  · intro h
    have hmem : m ∈ server.listed := List.mem_of_mem_drop (List.mem_of_mem_take h)
    obtain ⟨k, hk⟩ := List.mem_iff_getElem?.mp h
    rw [List.getElem?_take] at hk
    split_ifs at hk with hlt
    rw [List.getElem?_drop] at hk
    have hpos := position_of_listed hk
    exact ⟨hmem, by omega, by omega⟩
  · rintro ⟨hmem, hle, hlt⟩
    obtain ⟨i, hi⟩ := List.mem_iff_getElem?.mp hmem
    have hpos := position_of_listed hi
    have hk : ((server.listed.drop first).take noOfConfs)[i - first]? = some m := by
      rw [List.getElem?_take, if_pos (by omega), List.getElem?_drop]
      rwa [show first + (i - first) = i by omega]
    exact List.mem_of_getElem? hk

/-- A conference is listed once, what is cached by conference is of the conference, and what
is cached by position is within the list. -/
structure Within (persNo : ℕ) (s : CachingPersonClient × ListServer) : Prop where
  distinct : (s.2.confs.map Membership11.conference).Nodup
  persNo_eq : s.1.persNo = persNo
  caches : s.1.Caches (fun c m => m.conference = c) fun i _ => i < s.2.confs.length

theorem lt_of_mem_listed {m : Membership} (h : m ∈ server.listed) :
    m.position < server.confs.length := by
  obtain ⟨i, hi⟩ := List.mem_iff_getElem?.mp h
  rw [position_of_listed hi]
  obtain ⟨hlt, -⟩ := List.getElem?_eq_some_iff.mp hi
  simpa [listed] using hlt

namespace Within

theorem step {a : ReorderAction} (h : Within persNo s) (hstep : ReorderStep persNo s a t) :
    Within persNo t := by
  cases hstep with
  | @reorder confs perm =>
    have hperm := perm.map Membership11.conference
    refine ⟨hperm.nodup_iff.mpr h.distinct, h.persNo_eq, h.caches.imp (fun _ _ hm => hm) ?_⟩
    intro i _ hi
    exact lt_of_lt_of_eq hi perm.length_eq.symm
  | call fetches step =>
    obtain ⟨hserver, hpersNo, hleaves | ⟨first, noOfConfs, -, -, -, hclient⟩⟩ :=
      ReorderStep.call_cases h.persNo_eq fetches step
    · refine ⟨by rw [hserver]; exact h.distinct, hpersNo.trans h.persNo_eq, ?_, ?_⟩
      · intro c m hm
        rcases hleaves.memberships c m hm with hm | hconf
        · exact h.caches.memberships hm
        · exact hconf
      · intro i m hm
        rw [hleaves.byPosition] at hm
        rw [hserver]
        exact h.caches.byPosition hm
    · refine ⟨by rw [hserver]; exact h.distinct, hpersNo.trans h.persNo_eq, ?_⟩
      rw [hclient, hserver]
      exact h.caches.update fun m hm => lt_of_mem_listed (mem_window.mp hm).1
  | invalidate confNo =>
    exact ⟨h.distinct, h.persNo_eq, (h.caches.invalidate confNo).imp (fun _ _ hm => hm.2)
      fun _ _ hm => hm⟩

/-- A window that is cached leaves a conference at one position exactly if it does not hold
the conference, or holds it and its positions take the place of the old one. -/
theorem cachedOnce_update_iff (h : Within persNo s) (honce : s.1.CachedOnce confNo)
    (first noOfConfs : ℕ) :
    (s.1.updateCachedMembershipsByPosition (s.2.window first noOfConfs)).CachedOnce confNo ↔
      ((∃ m ∈ s.2.window first noOfConfs, m.conference = confNo) →
        ∀ i m, s.1.membershipsByPosition.get? i = some m → m.conference = confNo →
          first ≤ i ∧ i < first + noOfConfs) := by
  constructor
  · rintro honce' ⟨m, hm, hmconf⟩ i k hk hkconf
    by_contra hout
    have hold : (s.1.updateCachedMembershipsByPosition
        (s.2.window first noOfConfs)).membershipsByPosition.get? i = some k := by
      rw [CachingPersonClient.get?_updateCachedMembershipsByPosition_of_forall_ne, hk]
      rintro n hn rfl
      exact hout (mem_window.mp hn).2
    obtain ⟨n, hn, hpos, hnew⟩ :=
      CachingPersonClient.get?_updateCachedMembershipsByPosition_of_mem hm
    have hnconf : n.conference = m.conference := by
      have hnat := at_of_mem_listed (mem_window.mp hn).1
      rw [hpos] at hnat
      exact Option.some.inj (hnat.symm.trans (at_of_mem_listed (mem_window.mp hm).1))
    obtain rfl := honce' _ _ _ _ hold hkconf hnew (hnconf.trans hmconf)
    exact hout (mem_window.mp hm).2
  · intro hbrings i j m n hm hmconf hn hnconf
    by_cases hwindow : ∃ p ∈ s.2.window first noOfConfs, p.conference = confNo
    · -- Every copy of the conference has come with the window.
      have hnew : ∀ k p, (s.1.updateCachedMembershipsByPosition
          (s.2.window first noOfConfs)).membershipsByPosition.get? k = some p →
          p.conference = confNo → s.2.At confNo k := by
        intro k p hp hpconf
        have hcame : p ∈ s.2.window first noOfConfs ∧ p.position = k := by
          rcases CachingPersonClient.get?_updateCachedMembershipsByPosition hp with hnew | hold
          · exact hnew
          · obtain ⟨q, hq, rfl⟩ := exists_mem_listed (h.caches.byPosition hold)
            have hmem := mem_window.mpr ⟨hq, hbrings hwindow _ p hold hpconf⟩
            obtain ⟨r, hr, hpos, hget⟩ :=
              CachingPersonClient.get?_updateCachedMembershipsByPosition_of_mem hmem
            obtain rfl := Option.some.inj (hget.symm.trans hp)
            exact ⟨hr, hpos⟩
        obtain ⟨hmem, rfl⟩ := hcame
        exact hpconf ▸ at_of_mem_listed (mem_window.mp hmem).1
      exact (hnew i m hm hmconf).unique h.distinct (hnew j n hn hnconf)
    · have hold : ∀ k p, (s.1.updateCachedMembershipsByPosition
          (s.2.window first noOfConfs)).membershipsByPosition.get? k = some p →
          p.conference = confNo → s.1.membershipsByPosition.get? k = some p := by
        intro k p hp hpconf
        rcases CachingPersonClient.get?_updateCachedMembershipsByPosition hp with hnew | hold
        · exact absurd ⟨p, hnew.1, hpconf⟩ hwindow
        · exact hold
      exact honce i j m n (hold i m hm hmconf) hmconf (hold j n hn hnconf) hnconf

/-- **A step leaves a conference at one position** exactly if it brings no copy of it. -/
theorem cachedOnce_step_iff {a : ReorderAction} (h : Within persNo s)
    (honce : s.1.CachedOnce confNo) (hstep : ReorderStep persNo s a t) :
    t.1.CachedOnce confNo ↔ a.BringsNoCopy confNo s := by
  cases hstep with
  | reorder => exact iff_of_true honce trivial
  | @call _ action fetches step =>
    obtain ⟨-, -, hleaves | ⟨first, noOfConfs, result, rfl, hnone, hclient⟩⟩ :=
      ReorderStep.call_cases h.persNo_eq fetches step
    · refine iff_of_true (honce.of_byPosition fun i m hm => ?_) (hleaves.bringsNoCopy confNo)
      rwa [hleaves.byPosition] at hm
    · rw [hclient, h.cachedOnce_update_iff honce]
      exact ⟨fun hbrings _ _ => hbrings, fun hbrings => hbrings rfl hnone⟩
  | invalidate c =>
    exact iff_of_true (honce.of_byPosition fun i m hm =>
      CachingPersonClient.byPosition_of_invalidateMembership hm) trivial

theorem removes_iff_once (h : Within persNo s) : s.1.Removes confNo ↔ s.1.CachedOnce confNo :=
  CachingPersonClient.removes_iff_cachedOnce fun _ _ hm => h.caches.memberships hm

end Within

end ListServer

end

/-- **An invalidation removes every copy of a conference** in every run in which no window
brings another copy of it, and the first window that does breaks that. -/
theorem Run.removes_iff {persNo confNo : ℕ} {confs : List Membership}
    {s : CachingPersonClient × ListServer} (distinct : (confs.map Membership11.conference).Nodup)
    (h : Run (ReorderStep persNo) (fun s a => a.BringsNoCopy confNo s)
      ({ CachingPersonClient.init with persNo }, ⟨confs, []⟩) s) :
    s.1.Removes confNo ∧
    ∀ a t, ReorderStep persNo s a t → (t.1.Removes confNo ↔ a.BringsNoCopy confNo s) := by
  have hkept : ListServer.Within persNo s ∧ s.1.CachedOnce confNo := by
    apply h.invariant (P := fun s => ListServer.Within persNo s ∧ s.1.CachedOnce confNo)
    · refine ⟨⟨distinct, rfl, .init persNo⟩, ?_⟩
      intro i j m n hm
      cases hm
    · rintro u a v hbrings hstep ⟨hwithin, honce⟩
      exact ⟨hwithin.step hstep, (hwithin.cachedOnce_step_iff honce hstep).mpr hbrings⟩
  obtain ⟨hwithin, honce⟩ := hkept
  refine ⟨hwithin.removes_iff_once.mpr honce, fun a t hstep => ?_⟩
  rw [(hwithin.step hstep).removes_iff_once]
  exact hwithin.cachedOnce_step_iff honce hstep

/-- A window that is not all cached is fetched. -/
theorem ReorderStep.fetch {s : CachingPersonClient × ListServer} {first noOfConfs : ℕ}
    (hnone : s.1.getCachedMembershipsByPosition first noOfConfs = none) :
    ReorderStep s.1.persNo s
      (.call ⟨.getMemberships s.1.persNo first noOfConfs false, false,
        .ok (s.2.window first noOfConfs)⟩)
      (s.1.updateCachedMembershipsByPosition (s.2.window first noOfConfs), s.2) := by
  have hbody := PersonCall.body_getMemberships_own s.1 first noOfConfs
  rw [hnone] at hbody
  exact .call trivial (PersonStep.answered _ s.2 hbody ⟨rfl, fun _ => ⟨rfl, rfl⟩⟩)

section

/-- A person who is logged in, with conference 5 listed before conference 6. -/
private def listed56 : CachingPersonClient × ListServer :=
  ({ CachingPersonClient.init with persNo := 7 },
    ⟨[membershipAt 0 5 12, membershipAt 1 6 12], []⟩)

/-- The same when a window has been fetched, and the conferences have changed places. -/
private def swapped (noOfConfs : ℕ) : CachingPersonClient × ListServer :=
  (listed56.1.updateCachedMembershipsByPosition (listed56.2.window 0 noOfConfs),
    listed56.2.reorder [membershipAt 1 6 12, membershipAt 0 5 12])

private theorem run_swapped {noOfConfs : ℕ} (hpos : 0 < noOfConfs)
    {allowed : CachingPersonClient × ListServer → ReorderAction → Prop}
    (hfetch : ∀ result,
      allowed listed56 (.call ⟨.getMemberships 7 0 noOfConfs false, false, result⟩))
    (hreorder : ∀ s confs, allowed s (.reorder confs)) :
    Run (ReorderStep 7) allowed listed56 (swapped noOfConfs) := by
  have hnone : listed56.1.getCachedMembershipsByPosition 0 noOfConfs = none := by
    obtain ⟨n, rfl⟩ := Nat.exists_eq_add_one.mpr hpos
    rfl
  have hrun := Run.refl.tail (hfetch _) (ReorderStep.fetch (s := listed56) hnone)
  exact hrun.tail (hreorder _ _) (.reorder (List.Perm.swap _ _ _))

/-- Both conferences are fetched at once. -/
theorem Run.removes_swapped :
    ∃ s : CachingPersonClient × ListServer,
      s.1.membershipsByPosition.get? 0 = some (membershipAt 0 5 12) ∧
      s.2.At 5 1 ∧ s.1.Removes 5 := by
  have hrun := @run_swapped 2 Nat.two_pos (fun s a => a.BringsNoCopy 5 s)
    (by
      intro _ _ _ _ i m hm
      cases hm)
    fun _ _ => trivial
  exact ⟨swapped 2, rfl, rfl, (Run.removes_iff (by decide) hrun).1⟩

/-- Conference 5 is fetched at position 0 and, after the reordering, at position 1. -/
theorem Run.not_removes :
    ¬ ∀ (confs : List Membership) (s : CachingPersonClient × ListServer) (confNo : ℕ),
      (confs.map Membership11.conference).Nodup →
      Run (ReorderStep 7) (fun _ a => ∀ c, a ≠ .invalidate c)
        ({ CachingPersonClient.init with persNo := 7 }, ⟨confs, []⟩) s →
      s.1.Removes confNo := by
  intro hclaim
  have hrun := @run_swapped 1 Nat.one_pos (fun _ a => ∀ c, a ≠ .invalidate c)
    (fun _ _ => ReorderAction.noConfusion) fun _ _ _ => ReorderAction.noConfusion
  have hnone : (swapped 1).1.getCachedMembershipsByPosition 1 1 = none := rfl
  have hfetch := ReorderStep.fetch hnone
  have hremoves := hclaim _ _ 5 (by decide) (hrun.tail (fun _ => ReorderAction.noConfusion) hfetch)
  exact ((hremoves.byPosition 1 (membershipAt 1 5 12)).mp rfl).2 rfl

end

end Pylyskom
