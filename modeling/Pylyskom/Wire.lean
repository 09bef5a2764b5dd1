import Pylyskom.Responses
import Pylyskom.Collections.Lists

/-!
# The wire of a well-behaved server

A server that answers only what it was asked: of the messages that it has sent, some have
been read, and the lines of the others are the unread bytes. A ref-no is outstanding until
its reply has been read.
-/

namespace Pylyskom

/-- Of the messages sent, some have been parsed and the lines of the others are unread. -/
structure Wired (unread : Bytes) (outstanding issued : Dict ℕ ℕ) (parsed : List Response)
    (answered coming : List ServerMessage) (resps : List Response) (lines : List Bytes)
    (pre : Bytes) : Prop where
  means_parsed : List.Forall₂ (ServerMessage.Means issued.get?) answered parsed
  means_coming : List.Forall₂ (ServerMessage.Means issued.get?) coming resps
  distinct : ((answered ++ coming).filterMap ServerMessage.refNo).Nodup
  written : List.Forall₂ (fun m line => line ∈ m.lines) coming lines
  leftover : Leftover pre
  unread_eq : unread = pre ++ lines.flatten
  outstanding_eq : ∀ r, outstanding.get? r =
    if some r ∈ parsed.map Response.refNo then none else issued.get? r

namespace Wired

variable {unread : Bytes} {outstanding issued : Dict ℕ ℕ} {parsed : List Response}
  {answered coming : List ServerMessage} {resps : List Response} {lines : List Bytes} {pre : Bytes}

/-- The parsed replies are to distinct ref-nos. -/
theorem parsed_distinct
    (h : Wired unread outstanding issued parsed answered coming resps lines pre) :
    (parsed.filterMap Response.refNo).Nodup := by
  have heq : parsed.filterMap Response.refNo = answered.filterMap ServerMessage.refNo := by
    have hmeans := h.means_parsed
    generalize parsed = resps at hmeans
    generalize answered = msgs at hmeans
    induction hmeans with
    | nil => rfl
    | cons hm _ ih => rw [List.filterMap_cons, List.filterMap_cons, hm.refNo_eq, ih]
  have hdistinct := h.distinct
  rw [List.filterMap_append] at hdistinct
  rw [heq]
  exact hdistinct.sublist (List.sublist_append_left _ _)

/-- A parsed reply was sent to a ref-no that had been given out. -/
theorem issued_of_parsed
    (h : Wired unread outstanding issued parsed answered coming resps lines pre) {r : ℕ}
    (hr : some r ∈ parsed.map Response.refNo) : r ∈ issued := by
  obtain ⟨resp, hresp, hrefNo⟩ := List.mem_map.mp hr
  obtain ⟨m, -, hm⟩ := exists_of_forall₂ h.means_parsed hresp
  obtain ⟨callNo, hcall⟩ := hm.call (hm.refNo_eq.trans hrefNo)
  exact Dict.mem_of_get? hcall

/-- The next message stands for the same response when only the calls that have not been
answered are known. -/
theorem means_next {m : ServerMessage} {resp : Response}
    (h : Wired unread outstanding issued parsed answered (m :: coming) (resp :: resps) lines pre) :
    m.Means outstanding.get? resp := by
  obtain ⟨hm, -⟩ := List.forall₂_cons.mp h.means_coming
  apply hm.congr
  intro r hr
  rw [h.outstanding_eq]
  have hnot : some r ∉ parsed.map Response.refNo := by
    intro hmem
    obtain ⟨resp', hresp', hrefNo⟩ := List.mem_map.mp hmem
    obtain ⟨m', hm', hmeans'⟩ := exists_of_forall₂ h.means_parsed hresp'
    have hdistinct := h.distinct
    rw [List.filterMap_append, List.filterMap_cons_some hr, List.nodup_append] at hdistinct
    have hin : r ∈ answered.filterMap ServerMessage.refNo :=
      List.mem_filterMap.mpr ⟨m', hm', hmeans'.refNo_eq.trans hrefNo⟩
    exact hdistinct.2.2 r hin r List.mem_cons_self rfl
  rw [if_neg hnot]

/-- More ref-nos are given out. -/
theorem issue (h : Wired unread outstanding issued parsed answered coming resps lines pre)
    {refNo : ℕ} (callNo : ℕ) (fresh : refNo ∉ issued) :
    Wired unread (outstanding.set refNo callNo) (issued.set refNo callNo) parsed answered coming
      resps lines pre := by
  have hmono : ∀ {m : ServerMessage} {resp : Response}, m.Means issued.get? resp →
      m.Means (issued.set refNo callNo).get? resp := by
    intro m resp hm
    apply hm.congr
    intro r hr
    rw [Dict.get?_set, if_neg]
    rintro rfl
    obtain ⟨c, hcall⟩ := hm.call hr
    exact fresh (Dict.mem_of_get? hcall)
  have hfresh : some refNo ∉ parsed.map Response.refNo := fun hr => fresh (h.issued_of_parsed hr)
  constructor
  · exact h.means_parsed.imp fun _ _ => hmono
  · exact h.means_coming.imp fun _ _ => hmono
  · exact h.distinct
  · exact h.written
  · exact h.leftover
  · exact h.unread_eq
  · intro r
    rw [Dict.get?_set, Dict.get?_set, h.outstanding_eq]
    by_cases hr : r = refNo
    · subst hr
      rw [if_pos rfl, if_neg hfresh, if_pos rfl]
    · rw [if_neg hr, if_neg hr]

/-- The server sends another message. -/
theorem send (h : Wired unread outstanding issued parsed answered coming resps lines pre)
    {m : ServerMessage} {resp : Response} {line : Bytes} (hmeans : m.Means issued.get? resp)
    (hnew : ∀ r, m.refNo = some r → some r ∉ (answered ++ coming).map ServerMessage.refNo)
    (hline : line ∈ m.lines) :
    Wired (unread ++ line) outstanding issued parsed answered (coming ++ [m]) (resps ++ [resp])
      (lines ++ [line]) pre := by
  constructor
  · exact h.means_parsed
  · exact List.rel_append h.means_coming (.cons hmeans .nil)
  · rw [← List.append_assoc, List.filterMap_append]
    apply List.Nodup.append h.distinct
    · cases hr : m.refNo <;> simp [hr]
    · intro r hr hr'
      rw [List.mem_filterMap] at hr hr'
      obtain ⟨m', hm', hrefNo'⟩ := hr
      obtain ⟨m'', hm'', hrefNo⟩ := hr'
      obtain rfl : m'' = m := List.mem_singleton.mp hm''
      exact hnew r hrefNo (List.mem_map.mpr ⟨m', hm', hrefNo'⟩)
  · exact List.rel_append h.written (.cons hline .nil)
  · exact h.leftover
  · rw [h.unread_eq]
    simp
  · exact h.outstanding_eq

/-- The next response is parsed. -/
theorem parse {m : ServerMessage} {resp : Response} {line pre' : Bytes}
    (h : Wired unread outstanding issued parsed answered (m :: coming) (resp :: resps)
      (line :: lines) pre) (hpre' : Leftover pre') :
    Wired (pre' ++ lines.flatten) (resp.settle outstanding) issued (parsed ++ [resp])
      (answered ++ [m]) coming resps lines pre' := by
  obtain ⟨hm, hcoming⟩ := List.forall₂_cons.mp h.means_coming
  constructor
  · exact List.rel_append h.means_parsed (.cons hm .nil)
  · exact hcoming
  · rw [List.append_assoc]
    exact h.distinct
  · exact (List.forall₂_cons.mp h.written).2
  · exact hpre'
  · rfl
  · intro r
    rw [Response.get?_settle, h.outstanding_eq]
    by_cases hr : resp.refNo = some r
    · simp [hr]
    · have hr' : some r ≠ resp.refNo := fun heq => hr heq.symm
      simp [hr, hr']

/-- What the response parser does with the unread bytes: it reads the next response, or
runs short. -/
theorem run_unread (h : Wired unread outstanding issued parsed answered coming resps lines pre) :
    (∃ rest, (responseParser outstanding.get?).run unread = .starved rest) ∨
      ∃ m coming' resp resps' line lines' pre', coming = m :: coming' ∧ resps = resp :: resps' ∧
        lines = line :: lines' ∧ Leftover pre' ∧
        (responseParser outstanding.get?).run unread = .returned resp (pre' ++ lines'.flatten) := by
  rw [h.unread_eq]
  cases coming with
  | nil =>
    obtain rfl : lines = [] := List.forall₂_nil_left_iff.mp h.written
    rw [List.flatten_nil, List.append_nil]
    exact Or.inl (responseParser_leftover _ h.leftover)
  | cons m coming =>
    obtain ⟨resp, resps, -, -, rfl⟩ := List.forall₂_cons_left_iff.mp h.means_coming
    obtain ⟨line, lines, hline, -, rfl⟩ := List.forall₂_cons_left_iff.mp h.written
    obtain ⟨pre', hpre', hrun⟩ :=
      responseParser_line h.means_next hline h.leftover lines.flatten
    exact Or.inr ⟨m, coming, resp, resps, line, lines, pre', rfl, rfl, rfl, hpre', hrun⟩

end Wired

end Pylyskom
