import Pylyskom.Unread.Window

/-!
# Unread texts from a counting server

A server that takes the last argument of `local-to-global` for the number of existing
texts to list, as its name `no_of_existing_texts` says. The loop asks for as many texts
as a gap is long, so with holes in the gap a reply runs past its end.
-/

namespace Pylyskom

namespace LocalTexts

variable (L : LocalTexts)

/-- A reply lists the first `n` existing texts from `first` on, and ends after the last
of them. -/
structure CountingServer (localToGlobal : ℕ → ℕ → Except Exn TextMapping) : Prop where
  beyond : ∀ first n, L.highest < first →
    ∃ e, localToGlobal first n = .error e ∧ e.isNoSuchLocalText = true
  count : ∀ first n, 0 < n → first ≤ L.highest → ∃ mapping, localToGlobal first n = .ok mapping ∧
    mapping.list = ((L.onwards first).take n).map (fun i => (i, L.globalNo i)) ∧
    ((L.onwards first).length < n → mapping.rangeEnd = L.highest + 1) ∧
    (n ≤ (L.onwards first).length →
      ((L.onwards first).take n).getLast?.map (· + 1) = some mapping.rangeEnd) ∧
    (mapping.laterTextsExists ≠ 0 ↔ L.onwards mapping.rangeEnd ≠ [])

variable {L}

/-- A reply is the page of the first `n` texts. -/
theorem CountingServer.page {localToGlobal : ℕ → ℕ → Except Exn TextMapping}
    (h : L.CountingServer localToGlobal) {first n : ℕ} (hn : 0 < n) (hfirst : first ≤ L.highest) :
    ∃ mapping, localToGlobal first n = .ok mapping ∧
      L.Page first ((L.onwards first).take n) mapping ∧
      L.onwards mapping.rangeEnd = (L.onwards first).drop n ∧
      (mapping.laterTextsExists = 0 ↔ (L.onwards first).drop n = []) := by
  obtain ⟨mapping, heq, hlist, hfewer, henough, hlater⟩ := h.count first n hn hfirst
  have hexisting : ∀ i ∈ (L.onwards first).take n, L.existing i = true := fun i hi =>
    L.existing_of_mem_between (List.mem_of_mem_take hi)
  have htexts : mapping.texts = ((L.onwards first).take n).map L.globalNo := by
    rw [TextMapping.texts, hlist, List.map_map]
    exact L.filter_globalNo hexisting
  have hend : L.onwards mapping.rangeEnd = (L.onwards first).drop n ∧ first < mapping.rangeEnd := by
    rcases Nat.lt_or_ge (L.onwards first).length n with hlt | hge
    · rw [hfewer hlt, L.onwards_of_lt (Nat.lt_succ_self _), List.drop_eq_nil_of_le (by omega)]
      exact ⟨rfl, by omega⟩
    · obtain ⟨last, hlast, hle, -, -, hdrop⟩ := between_eq_take hn hge
      have hrange : last + 1 = mapping.rangeEnd := by
        have := henough hge
        rw [onwards, hlast] at this
        simpa using this
      rw [← hrange]
      exact ⟨hdrop.symm, by omega⟩
  refine ⟨mapping, heq, ⟨htexts, ?_, hend.2⟩, hend.1, ?_⟩
  · rw [hend.1, List.take_append_drop]
  · rw [← hend.1, ← not_iff_not]
    exact hlater

theorem CountingServer.pages {localToGlobal : ℕ → ℕ → Except Exn TextMapping}
    (h : L.CountingServer localToGlobal) : L.Pages localToGlobal where
  beyond hfirst := h.beyond _ _ hfirst
  page {first n} hn hfirst := by
    obtain ⟨mapping, heq, hpage, hend, hlater⟩ := h.page hn hfirst
    exact ⟨_, mapping, heq, hpage, fun hzero => by rw [hend, hlater.mp hzero]⟩

/-- The loop over one gap fetches as many texts as the gap is long. -/
theorem CountingServer.fetchGap {localToGlobal : ℕ → ℕ → Except Exn TextMapping}
    (h : L.CountingServer localToGlobal) (firstLocal gapLen : ℕ) (unread : List ℕ) (more : ℕ)
    (hmore : gapLen = 0 → (more = 0 ↔ L.onwards firstLocal = [])) :
    ∃ more', Unread.fetchGap localToGlobal firstLocal gapLen unread more =
        .ok (unread ++ ((L.onwards firstLocal).take gapLen).map L.globalNo, more') ∧
      (more' = 0 ↔ (L.onwards firstLocal).drop gapLen = []) := by
  induction gapLen using Nat.strong_induction_on generalizing firstLocal unread more with
  | _ gapLen ih => ?_
  rw [Unread.fetchGap]
  split
  · next hpos =>
    generalize hn : (if gapLen > 255 then 255 else gapLen) = n
    have hn_pos : 0 < n := by split at hn <;> omega
    obtain ⟨k, rfl⟩ : ∃ k, gapLen = n + k := ⟨gapLen - n, by split at hn <;> omega⟩
    simp only [Nat.add_sub_cancel_left]
    rcases Nat.lt_or_ge L.highest firstLocal with hbeyond | hfirst
    · obtain ⟨e, heq, he⟩ := h.beyond firstLocal n hbeyond
      have hnone := L.onwards_of_lt hbeyond
      obtain ⟨more', hrun, hmore'⟩ := ih k (by omega) firstLocal unread 0 (by simp [hnone])
      rw [hnone] at hrun hmore' ⊢
      exact ⟨more', by simpa only [heq, he, if_true, List.take_nil] using hrun,
        by simpa only [List.drop_nil] using hmore'⟩
    · obtain ⟨mapping, heq, hpage, hend, hlater⟩ := h.page hn_pos hfirst
      obtain ⟨more', hrun, hmore'⟩ := ih k (by omega) mapping.rangeEnd
        (unread ++ mapping.texts) mapping.laterTextsExists (by rw [hend]; exact fun _ => hlater)
      refine ⟨more', ?_, by rw [hmore', hend, List.drop_drop]⟩
      simp only [heq]
      rw [hrun, hpage.texts, hend, List.take_add, List.map_append, List.append_assoc]
  · next hzero =>
    obtain rfl : gapLen = 0 := by omega
    exact ⟨more, by simp, by simpa using hmore rfl⟩

/-- All texts that the method finds: from each gap as many as the gap is long, and those
after the last read range if the reply for the last gap says that there are later texts. -/
def collected (L : LocalTexts) (last : ℕ) : List (ℕ × ℕ) → (later : Bool) → List ℕ
  | [], later => if later then L.onwards last else []
  | gap :: gaps, _ => (L.onwards gap.1).take gap.2 ++
      L.collected last gaps (!((L.onwards gap.1).drop gap.2).isEmpty)

theorem existing_of_mem_collected {last i : ℕ} {gaps : List (ℕ × ℕ)} {later : Bool}
    (hi : i ∈ L.collected last gaps later) : L.existing i = true := by
  induction gaps generalizing later with
  | nil =>
    rw [collected] at hi
    split at hi
    · exact L.existing_of_mem_between hi
    · simp at hi
  | cons gap gaps ih =>
    rw [collected, List.mem_append] at hi
    rcases hi with hi | hi
    · exact L.existing_of_mem_between (List.mem_of_mem_take hi)
    · exact ih hi

theorem CountingServer.fetchGaps {localToGlobal : ℕ → ℕ → Except Exn TextMapping}
    (h : L.CountingServer localToGlobal) {first last : ℕ} {gaps : List (ℕ × ℕ)}
    (hgaps : SortedGaps first last gaps) (unread : List ℕ) (more : ℕ) :
    ∃ found more', Unread.fetchGaps localToGlobal gaps unread more =
        .ok (unread ++ found.map L.globalNo, more') ∧
      (∀ i ∈ found, L.existing i = true) ∧
      found ++ (if more' = 0 then [] else L.onwards last) =
        L.collected last gaps (decide (more ≠ 0)) := by
  induction gaps generalizing first unread more with
  | nil =>
    refine ⟨[], more, by simp [Unread.fetchGaps], by simp, ?_⟩
    by_cases hmore : more = 0 <;> simp [collected, hmore]
  | cons gap gaps ih =>
    obtain ⟨-, hpos, hrest⟩ := hgaps
    obtain ⟨more₁, hgap, hmore₁⟩ := h.fetchGap gap.1 gap.2 unread more (by omega)
    obtain ⟨found, more', hrun, hfound, hcollected⟩ := ih hrest
      (unread ++ ((L.onwards gap.1).take gap.2).map L.globalNo) more₁
    refine ⟨(L.onwards gap.1).take gap.2 ++ found, more', ?_, ?_, ?_⟩
    · simp only [Unread.fetchGaps, hgap, hrun, List.map_append, List.append_assoc]
    · intro i hi
      rcases List.mem_append.mp hi with hi | hi
      · exact L.existing_of_mem_between (List.mem_of_mem_take hi)
      · exact hfound i hi
    · have hflag : decide (more₁ ≠ 0) = !((L.onwards gap.1).drop gap.2).isEmpty := by
        rw [Bool.eq_iff_iff]
        simp [hmore₁]
      rw [List.append_assoc, hcollected, hflag, collected]

/-- The request for a gap gives its texts, and then later ones instead of the deleted. -/
theorem take_onwards (L : LocalTexts) (first len : ℕ) :
    (L.onwards first).take len = between L.existing first (first + len) ++
      (L.onwards (first + len)).take (len - (between L.existing first (first + len)).length) := by
  have hlen := length_between_le L.existing first (first + len)
  have hcut : between L.existing first (first + len) ++ L.onwards (first + len) =
      L.onwards first := between_append_of_bound (fun i hi => L.existing_lt hi) (by omega)
  rw [← hcut, List.take_append, List.take_of_length_le (by omega)]

theorem drop_onwards (L : LocalTexts) (first len : ℕ) :
    (L.onwards first).drop len =
      (L.onwards (first + len)).drop (len - (between L.existing first (first + len)).length) := by
  have hlen := length_between_le L.existing first (first + len)
  have hcut : between L.existing first (first + len) ++ L.onwards (first + len) =
      L.onwards first := between_append_of_bound (fun i hi => L.existing_lt hi) (by omega)
  rw [← hcut, List.drop_append, List.drop_of_length_le (by omega), List.nil_append]

theorem onwards_eq_nil_iff (L : LocalTexts) (first : ℕ) :
    L.onwards first = [] ↔ ∀ i, first ≤ i → L.existing i = false := by
  rw [onwards, between_eq_nil_iff]
  refine forall₂_congr fun i _ => ⟨fun h => ?_, fun h _ => h⟩
  by_contra hex
  have hi : L.existing i = true := by simpa using hex
  exact hex (h (L.existing_lt hi))

/-- A gap without holes, or without texts after it. -/
def GapExact (L : LocalTexts) (gap : ℕ × ℕ) : Prop :=
  (∀ i, gap.1 ≤ i → i < gap.1 + gap.2 → L.existing i = true) ∨
    ∀ i, gap.1 + gap.2 ≤ i → L.existing i = false

theorem gapExact_iff (L : LocalTexts) (gap : ℕ × ℕ) :
    L.GapExact gap ↔ (L.onwards (gap.1 + gap.2)).take
      (gap.2 - (between L.existing gap.1 (gap.1 + gap.2)).length) = [] := by
  have hlen := length_between_le L.existing gap.1 (gap.1 + gap.2)
  have hfull := length_between_eq_iff (p := L.existing) (a := gap.1) (b := gap.1 + gap.2)
  rw [List.take_eq_nil_iff, onwards_eq_nil_iff, GapExact, ← hfull]
  refine or_congr_left ?_
  omega

instance (L : LocalTexts) (gap : ℕ × ℕ) : Decidable (L.GapExact gap) :=
  decidable_of_iff _ (L.gapExact_iff gap).symm

/-- The condition on the gaps: each is exact, except that the last one may also have holes
where its reply lists all remaining texts and none of them is in a read range. -/
def GapsExact (L : LocalTexts) (gaps : List (ℕ × ℕ)) (last : ℕ) : Prop :=
  (∀ gap ∈ gaps.dropLast, L.GapExact gap) ∧
    ∀ gap ∈ gaps.getLast?, L.GapExact gap ∨
      (L.onwards gap.1).length ≤ gap.2 ∧
        ∀ i < last, gap.1 + gap.2 ≤ i → L.existing i = false

instance (L : LocalTexts) (gaps : List (ℕ × ℕ)) (last : ℕ) : Decidable (L.GapsExact gaps last) :=
  inferInstanceAs (Decidable (_ ∧ _))

/-- The texts in the gaps and after the last range. -/
def inGaps (L : LocalTexts) (gaps : List (ℕ × ℕ)) (last : ℕ) : List ℕ :=
  gaps.flatMap (fun gap => between L.existing gap.1 (gap.1 + gap.2)) ++ L.onwards last

theorem inGaps_cons (L : LocalTexts) (gap : ℕ × ℕ) (gaps : List (ℕ × ℕ)) (last : ℕ) :
    L.inGaps (gap :: gaps) last =
      between L.existing gap.1 (gap.1 + gap.2) ++ L.inGaps gaps last := by
  rw [inGaps, List.flatMap_cons, List.append_assoc, inGaps]

theorem le_of_mem_inGaps {first last i : ℕ} {gaps : List (ℕ × ℕ)}
    (hgaps : SortedGaps first last gaps) (hi : i ∈ L.inGaps gaps last) : first ≤ i := by
  induction gaps generalizing first with
  | nil => exact Nat.le_trans hgaps (mem_between.mp hi).1
  | cons gap gaps ih =>
    obtain ⟨hfirst, -, hrest⟩ := hgaps
    rw [inGaps_cons, List.mem_append] at hi
    rcases hi with hi | hi
    · have := (mem_between.mp hi).1
      omega
    · have := ih hrest hi
      omega

theorem existing_of_mem_inGaps {last i : ℕ} {gaps : List (ℕ × ℕ)}
    (hi : i ∈ L.inGaps gaps last) : L.existing i = true := by
  rw [inGaps, List.mem_append, List.mem_flatMap] at hi
  rcases hi with ⟨gap, -, hi⟩ | hi
  · exact L.existing_of_mem_between hi
  · exact L.existing_of_mem_between hi

/-- They are in increasing order. -/
theorem pairwise_inGaps {first last : ℕ} {gaps : List (ℕ × ℕ)}
    (hgaps : SortedGaps first last gaps) : (L.inGaps gaps last).Pairwise (· < ·) := by
  induction gaps generalizing first with
  | nil => exact pairwise_between _ _ _
  | cons gap gaps ih =>
    obtain ⟨-, -, hrest⟩ := hgaps
    rw [inGaps_cons, List.pairwise_append]
    refine ⟨pairwise_between _ _ _, ih hrest, fun i hi j hj => ?_⟩
    have hi' := (mem_between.mp hi).2.1
    have hj' := le_of_mem_inGaps hrest hj
    omega

/-- A gap with holes before another gap: the first text listed beyond its end is a read
one, or it is listed once more for the next gap. -/
theorem collected_ne_of_holes {last : ℕ} {gap next : ℕ × ℕ} {gaps : List (ℕ × ℕ)} (later : Bool)
    (hgaps : SortedGaps (gap.1 + gap.2) last (next :: gaps)) (hholes : ¬ L.GapExact gap) :
    (L.onwards (gap.1 + gap.2)).take
        (gap.2 - (between L.existing gap.1 (gap.1 + gap.2)).length) ++
      L.collected last (next :: gaps) later ≠ L.inGaps (next :: gaps) last := by
  intro heq
  have hsorted := heq ▸ pairwise_inGaps hgaps
  have hfrom : SortedGaps next.1 last (next :: gaps) := ⟨Nat.le_refl _, hgaps.2⟩
  obtain ⟨hnext, hpos, -⟩ := hgaps
  rw [gapExact_iff] at hholes
  obtain ⟨text, extra, hextra⟩ := List.exists_cons_of_ne_nil hholes
  rw [hextra] at heq hsorted
  have hle : next.1 ≤ text := by
    have hmem : text ∈ L.inGaps (next :: gaps) last := by
      rw [← heq]
      simp
    exact le_of_mem_inGaps hfrom hmem
  have hcut : between L.existing (gap.1 + gap.2) next.1 ++ L.onwards next.1 =
      L.onwards (gap.1 + gap.2) := between_append_of_bound (fun i hi => L.existing_lt hi) hnext
  rw [← List.take_append_drop (gap.2 - (between L.existing gap.1 (gap.1 + gap.2)).length)
    (L.onwards (gap.1 + gap.2)), hextra] at hcut
  -- `text` is the first one after the gap, so it is also the first one of the next gap.
  have hagain : text ∈ (L.onwards next.1).take next.2 := by
    cases hskipped : between L.existing (gap.1 + gap.2) next.1 with
    | nil =>
      rw [hskipped, List.nil_append] at hcut
      obtain ⟨n, hn⟩ : ∃ n, next.2 = n + 1 := ⟨next.2 - 1, by omega⟩
      rw [hcut, hn]
      simp
    | cons i skipped =>
      have hi : i < next.1 := by
        have hmem : i ∈ between L.existing (gap.1 + gap.2) next.1 := by simp [hskipped]
        exact (mem_between.mp hmem).2.1
      rw [hskipped] at hcut
      obtain ⟨rfl, -⟩ := List.cons.inj hcut
      omega
  have hlater := (List.pairwise_append.mp hsorted).2.2 text List.mem_cons_self text
    (by rw [collected]; exact List.mem_append_left _ hagain)
  omega

/-- Exactly under that condition the method finds the unread texts. -/
theorem collected_eq_iff {first last : ℕ} {gaps : List (ℕ × ℕ)} {later : Bool}
    (hgaps : SortedGaps first last gaps) (hlater : later = false → L.onwards first = []) :
    L.collected last gaps later = L.inGaps gaps last ↔ L.GapsExact gaps last := by
  induction gaps generalizing first later with
  | nil =>
    have hle := hgaps.le
    have hright : L.GapsExact [] last := ⟨by simp, by simp⟩
    have hleft : L.collected last [] later = L.onwards last := by
      cases later with
      | true => rfl
      | false =>
        have hnone := (L.onwards_eq_nil_iff first).mp (hlater rfl)
        have hlast := (L.onwards_eq_nil_iff last).mpr fun i hi => hnone i (by omega)
        rw [hlast]
        rfl
    simp [hleft, hright, inGaps]
  | cons gap gaps ih =>
    obtain ⟨-, -, hrest⟩ := hgaps
    rw [collected, take_onwards, drop_onwards, inGaps_cons, List.append_assoc,
      List.append_right_inj]
    have hexact := L.gapExact_iff gap
    by_cases h : L.GapExact gap
    · rw [hexact.mp h, List.nil_append, ih hrest]
      · cases gaps with
        | nil => simp [GapsExact, h]
        | cons next gaps => simp [GapsExact, h]
      · intro hdrop
        rw [← List.take_append_drop (gap.2 - (between L.existing gap.1 (gap.1 + gap.2)).length)
          (L.onwards (gap.1 + gap.2)), hexact.mp h]
        simpa using hdrop
    · cases gaps with
      | cons next gaps =>
        have hne := collected_ne_of_holes (!((L.onwards (gap.1 + gap.2)).drop
          (gap.2 - (between L.existing gap.1 (gap.1 + gap.2)).length)).isEmpty) hrest h
        have hnot : ¬ L.GapsExact (gap :: next :: gaps) last := fun hall =>
          h (hall.1 gap (by simp))
        exact iff_of_false hne hnot
      | nil =>
        have hcond : L.GapsExact [gap] last ↔ (L.onwards gap.1).length ≤ gap.2 ∧
            ∀ i, gap.1 + gap.2 ≤ i → i < last → L.existing i = false := by
          simp [GapsExact, h, imp.swap]
        have hcut : between L.existing (gap.1 + gap.2) last ++ L.onwards last =
            L.onwards (gap.1 + gap.2) :=
          between_append_of_bound (fun i hi => L.existing_lt hi) hrest.le
        rw [hcond, inGaps, List.flatMap_nil, List.nil_append, collected, ← between_eq_nil_iff]
        have hdrop := L.drop_onwards gap.1 gap.2
        rcases Nat.lt_or_ge gap.2 (L.onwards gap.1).length with hmany | hfew
        · have hmore : (L.onwards gap.1).drop gap.2 ≠ [] := by simpa using hmany
          rw [hdrop] at hmore
          simp only [List.isEmpty_eq_false_iff.mpr hmore, Bool.not_false, if_true]
          rw [List.append_left_eq_self, ← hexact]
          exact iff_of_false h (by omega)
        · have hnone := List.drop_eq_nil_of_le hfew
          rw [hdrop] at hnone
          have hall := List.take_append_drop
            (gap.2 - (between L.existing gap.1 (gap.1 + gap.2)).length) (L.onwards (gap.1 + gap.2))
          rw [hnone, List.append_nil] at hall
          simp only [hnone, hall, List.isEmpty_nil, Bool.not_true, Bool.false_eq_true, if_false,
            List.append_nil]
          rw [← hcut, List.append_left_eq_self]
          exact ⟨fun hskipped => ⟨hfew, hskipped⟩, fun hboth => hboth.2⟩

/-- What the method returns from a counting server. -/
theorem CountingServer.getUnreadTexts {request : ℕ → ℕ → ℕ → Except Exn TextMapping}
    {membership : Membership} (hserver : L.CountingServer (request membership.conference))
    (hranges : SortedRanges membership.readRanges) :
    Returns (fun fuel => Unread.getUnreadTexts fuel request membership)
      ((L.collected (lastFrom 1 membership.readRanges)
        (gapsFrom 1 membership.readRanges) true).map L.globalNo) := by
  obtain ⟨found, more, hgaps, hfound, hcollected⟩ :=
    hserver.fetchGaps hranges.sortedFrom.sortedGaps [] 1
  rw [List.nil_append] at hgaps
  have hrun := hserver.pages.getUnreadTexts hfound hgaps
  rwa [hcollected] at hrun

theorem CountingServer.returns_iff {request : ℕ → ℕ → ℕ → Except Exn TextMapping}
    {membership : Membership} (hserver : L.CountingServer (request membership.conference))
    (hranges : SortedRanges membership.readRanges) :
    Returns (fun fuel => Unread.getUnreadTexts fuel request membership)
        ((L.unread membership.readRanges).map L.globalNo) ↔
      L.GapsExact (readRangesToGapsAndLast membership.readRanges).1
        (readRangesToGapsAndLast membership.readRanges).2 := by
  have hrun := hserver.getUnreadTexts hranges
  have hsorted := hranges.sortedFrom
  have hunread : L.unread membership.readRanges =
      L.inGaps (gapsFrom 1 membership.readRanges) (lastFrom 1 membership.readRanges) :=
    between_unread (fun i hi => L.existing_lt hi) hsorted
  rw [readRangesToGapsAndLast_eq, ← collected_eq_iff hsorted.sortedGaps
    (show true = false → L.onwards 1 = [] by simp)]
  constructor
  · intro hunreadRun
    have heq := hrun.unique hunreadRun
    rw [hunread] at heq
    exact (L.map_globalNo_inj (fun i hi => existing_of_mem_collected hi)
      fun i hi => existing_of_mem_inGaps hi).mp heq
  · intro heq
    rwa [hunread, ← heq]

end LocalTexts

open LocalTexts

/-- **Unread texts from a counting server.** Both clients return the unread existing texts
if and only if the gaps between the read ranges have no holes that make a reply run past
the end of its gap into other texts. -/
theorem getUnreadTexts_counting_iff {L : LocalTexts}
    {request : ℕ → ℕ → ℕ → Except Exn TextMapping} {membership : Membership}
    (hserver : L.CountingServer (request membership.conference))
    (hranges : SortedRanges membership.readRanges) :
    (Returns (fun fuel => CachingClient.getUnreadTextsFromMembership fuel request membership)
        ((L.unread membership.readRanges).map L.globalNo) ↔
      L.GapsExact (readRangesToGapsAndLast membership.readRanges).1
        (readRangesToGapsAndLast membership.readRanges).2) ∧
    (Returns (fun fuel => AioCachingClient.getUnreadTextsFromMembership fuel request membership)
        ((L.unread membership.readRanges).map L.globalNo) ↔
      L.GapsExact (readRangesToGapsAndLast membership.readRanges).1
        (readRangesToGapsAndLast membership.readRanges).2) := by
  have h := hserver.returns_iff hranges
  exact ⟨h, h⟩

/-- A server that counts existing texts. -/
def LocalTexts.countingHandler (L : LocalTexts) (first n : ℕ) : Except Exn TextMapping :=
  if first > L.highest then .error (.serverError ⟨.noSuchLocalText, first⟩)
  else
    let texts := (L.onwards first).take n
    let rangeEnd :=
      if (L.onwards first).length < n then L.highest + 1
      else (texts.getLast?.map (· + 1)).getD (L.highest + 1)
    .ok { rangeBegin := first
          rangeEnd := rangeEnd
          laterTextsExists := if (L.onwards rangeEnd).isEmpty then 0 else 1
          block := .sparse (texts.map fun i => ⟨i, L.globalNo i⟩) }

theorem countingHandler_counting (L : LocalTexts) : L.CountingServer L.countingHandler where
  beyond first n hfirst := ⟨.serverError ⟨.noSuchLocalText, first⟩, if_pos hfirst, rfl⟩
  count first n hn hfirst := by
    refine ⟨_, if_neg (by omega), ?_, fun hfewer => if_pos hfewer, fun henough => ?_, ?_⟩
    · simp only [TextMapping.list, List.map_map, Function.comp_def]
    · simp only [if_neg (Nat.not_lt.mpr henough)]
      obtain ⟨last, hlast, -⟩ := between_eq_take hn henough
      rw [onwards, hlast]
      rfl
    · simp

/-- Five local texts, the first and the fourth of them deleted and two ranges read. -/
def holedTexts : LocalTexts where
  existing i := 2 ≤ i && i ≤ 5 && i != 4
  highest := 5
  globalNo i := 100 + i
  existing_bounds i h := by simp at h; omega
  globalNo_injective i j hi hj h := by omega
  globalNo_ne_zero i h := by omega

theorem getUnreadTexts_counting_iff_sample :
    ∃ membership : Membership, membership.readRanges = [⟨2, 2⟩] ∧
      Returns (fun fuel => CachingClient.getUnreadTextsFromMembership fuel
        (fun _ => countingHandler sampleTexts) membership) [99, 96] ∧
      Returns (fun fuel => AioCachingClient.getUnreadTextsFromMembership fuel
        (fun _ => countingHandler sampleTexts) membership) [99, 96] := by
  have hranges : SortedRanges [⟨2, 2⟩] := ⟨by decide, by decide⟩
  have hunread : (sampleTexts.unread [⟨2, 2⟩]).map sampleTexts.globalNo = [99, 96] := by decide
  have hexact : sampleTexts.GapsExact (readRangesToGapsAndLast [⟨2, 2⟩]).1
      (readRangesToGapsAndLast [⟨2, 2⟩]).2 := by decide
  rw [← hunread]
  have h := @getUnreadTexts_counting_iff sampleTexts (fun _ => countingHandler sampleTexts)
    { sampleMembership with readRanges := [⟨2, 2⟩] } (countingHandler_counting sampleTexts) hranges
  exact ⟨_, rfl, h.1.mpr hexact, h.2.mpr hexact⟩

/-- The gap before text 3 has the hole 1, so its reply also lists the read text 3, and both
clients return the texts 102, 103 and 105. -/
theorem getUnreadTexts_counting_hole :
    ∃ membership : Membership, SortedRanges membership.readRanges ∧
      holedTexts.CountingServer holedTexts.countingHandler ∧
      ¬ Returns (fun fuel => CachingClient.getUnreadTextsFromMembership fuel
        (fun _ => holedTexts.countingHandler) membership)
          ((holedTexts.unread membership.readRanges).map holedTexts.globalNo) ∧
      ¬ Returns (fun fuel => AioCachingClient.getUnreadTextsFromMembership fuel
        (fun _ => holedTexts.countingHandler) membership)
          ((holedTexts.unread membership.readRanges).map holedTexts.globalNo) := by
  have hserver := countingHandler_counting holedTexts
  have hranges : SortedRanges [⟨3, 4⟩] := ⟨by decide, by decide⟩
  have hrun := @CountingServer.getUnreadTexts holedTexts (fun _ => holedTexts.countingHandler)
    { sampleMembership with readRanges := [⟨3, 4⟩] } hserver hranges
  have hcollected : (holedTexts.collected (lastFrom 1 [⟨3, 4⟩]) (gapsFrom 1 [⟨3, 4⟩]) true).map
      holedTexts.globalNo = [102, 103, 105] := by decide
  have hunread : (holedTexts.unread [⟨3, 4⟩]).map holedTexts.globalNo = [102, 105] := by decide
  rw [hcollected] at hrun
  have hnot : ∀ {run : (fuel : ℕ) → Option (Except Exn (List ℕ))}, Returns run [102, 103, 105] →
      ¬ Returns run ((holedTexts.unread [⟨3, 4⟩]).map holedTexts.globalNo) := by
    intro run h h'
    have heq := h.unique h'
    rw [hunread] at heq
    simp at heq
  exact ⟨_, hranges, hserver, hnot hrun, hnot hrun⟩

end Pylyskom
