import Pylyskom.Coroutine.Triples
import Pylyskom.Session.Uncached

/-!
# Unread texts, request by request

`get_unread_texts_from_membership` as a method that waits for the replies of a server which
maps local to global numbers. Its result is that of the loops over the server's mappings.
-/

namespace Pylyskom

/-- How a session is served, when its client is served as by `S`. -/
abbrev SessionState.service (S : Service ClientState ClientCall ClientCall.Reply Exn) :
    Service SessionState ClientCall ClientCall.Reply Exn where
  keeps s := ∃ client, s.client = some client ∧ S.keeps client
  sends := S.sends
  replies := S.replies

/-- A method of the client, as an operation of the session. -/
theorem SessionOp.computes_client {S : Service ClientState ClientCall ClientCall.Reply Exn}
    {α : Type} {m : ClientM α} {x : Except Exn α} (hm : Computes S m x) :
    Computes (SessionState.service S) (SessionOp.client m) x := by
  rintro s ⟨client, hclient, hkeeps⟩
  have hget : ∀ s, (SessionState.service S).keeps s → S.keeps (s.client.getD client) := by
    rintro s ⟨other, hother, hkeeps⟩
    rw [hother]
    exact hkeeps
  rw [SessionOp.client_of_some hclient]
  have hs : (SessionState.service S).keeps s := ⟨client, hclient, hkeeps⟩
  refine Suspended.Computes.zoom (hm _ (hget s hs)) hget ?_ ?_ ?_ hs
  · rintro client s ⟨other, hother, -⟩ hkeeps
    refine ⟨client, ?_, hkeeps⟩
    simp only [hother, Option.map_some]
  · exact fun call hsends => hsends
  · intro call reply hreply
    cases reply <;> exact hreply

namespace ClientState

variable {keeps : ClientState → Prop} {mapping : ℕ → ℕ → ℕ → Except Exn TextMapping}

/-- Replies to `local-to-global` as given, whatever the client keeps meanwhile. -/
abbrev mappingService (keeps : ClientState → Prop)
    (mapping : ℕ → ℕ → ℕ → Except Exn TextMapping) :
    Service ClientState ClientCall ClientCall.Reply Exn where
  keeps
  sends call := ∃ confNo first n, call = ⟨false, .localToGlobal confNo first n⟩
  replies := fun
    | ⟨_, .localToGlobal confNo first n⟩, reply => reply = mapping confNo first n
    | _, _ => True

/-- The mapping, or `None` for `except NoSuchLocalText`. -/
def mapped (reply : Except Exn TextMapping) : Except Exn (Option TextMapping) :=
  match reply with
  | .ok found => .ok (some found)
  | .error e => if e.isNoSuchLocalText then .ok none else .error e

theorem computes_localToGlobal (confNo first n : ℕ) :
    Computes (mappingService keeps mapping) (localToGlobal confNo first n)
      (mapped (mapping confNo first n)) := by
  have hrequest : Computes (mappingService keeps mapping)
      (request (.localToGlobal confNo first n)) (mapping confNo first n) :=
    Computes.request ⟨confNo, first, n, rfl⟩ fun _ hreply => hreply
  unfold localToGlobal mapped
  cases hreply : mapping confNo first n with
  | ok found =>
    rw [hreply] at hrequest
    exact (hrequest.bind_ok (Computes.pure (some found))).tryCatch_ok
  | error e =>
    rw [hreply] at hrequest
    apply hrequest.bind_error.tryCatch_error
    by_cases hbeyond : e.isNoSuchLocalText = true
    · simp only [hbeyond, if_true]
      exact Computes.pure none
    · simp only [hbeyond, Bool.false_eq_true, if_false]
      exact Computes.throw e

theorem computes_fetchGap (confNo firstLocal gapLen : ℕ) (unread : List ℕ) (more : ℕ) :
    Computes (mappingService keeps mapping) (fetchGap confNo firstLocal gapLen unread more)
      (Unread.fetchGap (mapping confNo) firstLocal gapLen unread more) := by
  induction gapLen using Nat.strong_induction_on generalizing firstLocal unread more with
  | _ gapLen ih => ?_
  rw [fetchGap, Unread.fetchGap]
  split
  · next hpos =>
    generalize hn : (if gapLen > 255 then 255 else gapLen) = n
    have hlt : gapLen - n < gapLen := by split at hn <;> omega
    have hmapped : Computes (mappingService keeps mapping) (localToGlobal confNo firstLocal n)
        (mapped (mapping confNo firstLocal n)) := computes_localToGlobal confNo firstLocal n
    unfold mapped at hmapped
    cases hreply : mapping confNo firstLocal n with
    | ok found =>
      simp only [hreply] at hmapped ⊢
      exact hmapped.bind_ok (ih _ hlt _ _ _)
    | error e =>
      simp only [hreply] at hmapped ⊢
      by_cases hbeyond : e.isNoSuchLocalText = true
      · simp only [hbeyond, if_true] at hmapped ⊢
        exact hmapped.bind_ok (ih _ hlt _ _ _)
      · simp only [hbeyond, Bool.false_eq_true, if_false] at hmapped ⊢
        exact hmapped.bind_error
  · exact Computes.pure _

theorem computes_fetchGaps (confNo : ℕ) (gaps : List (ℕ × ℕ)) (unread : List ℕ) (more : ℕ) :
    Computes (mappingService keeps mapping) (fetchGaps confNo gaps unread more)
      (Unread.fetchGaps (mapping confNo) gaps unread more) := by
  induction gaps generalizing unread more with
  | nil => exact Computes.pure _
  | cons gap gaps ih =>
    have hgap : Computes (mappingService keeps mapping)
        (fetchGap confNo gap.1 gap.2 unread more)
        (Unread.fetchGap (mapping confNo) gap.1 gap.2 unread more) :=
      computes_fetchGap confNo gap.1 gap.2 unread more
    rw [fetchGaps, Unread.fetchGaps]
    cases hfetched : Unread.fetchGap (mapping confNo) gap.1 gap.2 unread more with
    | ok found =>
      rw [hfetched] at hgap
      exact hgap.bind_ok (ih found.1 found.2)
    | error e =>
      rw [hfetched] at hgap
      exact hgap.bind_error

theorem computes_fetchTail {confNo fuel firstLocal : ℕ} {unread : List ℕ} {more : ℕ}
    {x : Except Exn (List ℕ)}
    (hx : Unread.fetchTail (mapping confNo) fuel firstLocal unread more = some x) :
    Computes (mappingService keeps mapping) (fetchTail confNo fuel firstLocal unread more) x := by
  induction fuel generalizing firstLocal unread more with
  | zero =>
    cases more with
    | zero =>
      obtain rfl := Option.some.inj hx
      exact Computes.pure _
    | succ more => cases hx
  | succ fuel ih =>
    cases more with
    | zero =>
      obtain rfl := Option.some.inj hx
      exact Computes.pure _
    | succ more =>
      have hmapped : Computes (mappingService keeps mapping) (localToGlobal confNo firstLocal 255)
          (mapped (mapping confNo firstLocal 255)) := computes_localToGlobal confNo firstLocal 255
      unfold mapped at hmapped
      rw [Unread.fetchTail] at hx
      rw [fetchTail]
      cases hreply : mapping confNo firstLocal 255 with
      | ok found =>
        simp only [hreply] at hmapped hx
        exact hmapped.bind_ok (ih hx)
      | error e =>
        simp only [hreply] at hmapped hx
        by_cases hbeyond : e.isNoSuchLocalText = true
        · simp only [hbeyond, if_true] at hmapped hx
          exact hmapped.bind_ok (ih hx)
        · simp only [hbeyond, Bool.false_eq_true, if_false] at hmapped hx
          obtain rfl := Option.some.inj hx
          exact hmapped.bind_error

/-- The requests are those of the loops, and so is the result. -/
theorem computes_getUnreadTexts {fuel : ℕ} {membership : Membership} {x : Except Exn (List ℕ)}
    (hx : Unread.getUnreadTexts fuel mapping membership = some x) :
    Computes (mappingService keeps mapping) (getUnreadTextsFromMembership fuel membership) x := by
  unfold Unread.getUnreadTexts at hx
  unfold getUnreadTextsFromMembership
  have hgaps : Computes (mappingService keeps mapping)
      (fetchGaps membership.conference (readRangesToGapsAndLast membership.readRanges).1 [] 1)
      (Unread.fetchGaps (mapping membership.conference)
        (readRangesToGapsAndLast membership.readRanges).1 [] 1) := computes_fetchGaps _ _ _ _
  simp only at hx
  cases hfetched : Unread.fetchGaps (mapping membership.conference)
      (readRangesToGapsAndLast membership.readRanges).1 [] 1 with
  | error e =>
    rw [hfetched] at hx hgaps
    obtain rfl := Option.some.inj hx
    exact hgaps.bind_error
  | ok found =>
    rw [hfetched] at hx hgaps
    refine hgaps.bind_ok ?_
    obtain ⟨texts, htail, rfl⟩ := Option.map_eq_some_iff.mp hx
    have htail : Computes (mappingService keeps mapping) _ texts := computes_fetchTail htail
    cases texts with
    | ok texts => exact htail.bind_ok (Computes.pure _)
    | error e => exact htail.bind_error

end ClientState
end Pylyskom
