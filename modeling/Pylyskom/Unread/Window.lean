import Pylyskom.Unread

/-!
# Unread texts from a window server

The server of the repository's tests: a reply to `local-to-global` covers a window of
local numbers, whether or not their texts exist. Then the requests for a gap cover the
gap exactly.
-/

namespace Pylyskom

namespace LocalTexts

variable (L : LocalTexts)

/-- A reply covers the `n` local numbers from `first` on. It lists the existing texts
among them, and some of the deleted ones with the number 0. -/
structure WindowServer (localToGlobal : ℕ → ℕ → Except Exn TextMapping) : Prop where
  beyond : ∀ first n, L.highest < first →
    ∃ e, localToGlobal first n = .error e ∧ e.isNoSuchLocalText = true
  window : ∀ first n, first ≤ L.highest → ∃ mapping, localToGlobal first n = .ok mapping ∧
    mapping.rangeEnd = min (first + n) (L.highest + 1) ∧
    (∃ shown : ℕ → Bool, mapping.list =
      (between (fun i => L.existing i || shown i) first mapping.rangeEnd).map
        fun i => (i, if L.existing i then L.globalNo i else 0)) ∧
    (mapping.laterTextsExists ≠ 0 ↔ mapping.rangeEnd ≤ L.highest)

variable {L}

/-- The deleted texts that a reply lists are filtered out. -/
theorem texts_of_window {mapping : TextMapping} {first : ℕ} {shown : ℕ → Bool}
    (h : mapping.list = (between (fun i => L.existing i || shown i) first mapping.rangeEnd).map
      fun i => (i, if L.existing i then L.globalNo i else 0)) :
    mapping.texts = (between L.existing first mapping.rangeEnd).map L.globalNo := by
  have hfilter : (between (fun i => L.existing i || shown i) first mapping.rangeEnd).filter
      (fun i => decide ((if L.existing i then L.globalNo i else 0) ≠ 0)) =
      between L.existing first mapping.rangeEnd := by
    rw [between, List.filter_filter, between]
    refine List.filter_congr fun i _ => ?_
    cases hi : L.existing i with
    | false => simp
    | true => simpa using L.globalNo_ne_zero i hi
  rw [TextMapping.texts, h, List.map_map, List.filter_map]
  simp only [Function.comp_def]
  rw [hfilter]
  refine List.map_congr_left fun i hi => ?_
  simp [L.existing_of_mem_between hi]

theorem WindowServer.pages {localToGlobal : ℕ → ℕ → Except Exn TextMapping}
    (h : L.WindowServer localToGlobal) : L.Pages localToGlobal where
  beyond hfirst := h.beyond _ _ hfirst
  page {first n} hn hfirst := by
    obtain ⟨mapping, heq, hend, ⟨shown, hlist⟩, hlater⟩ := h.window first n hfirst
    refine ⟨between L.existing first mapping.rangeEnd, mapping, heq,
      ⟨texts_of_window hlist, ?_, ?_⟩, ?_⟩
    · exact between_append_of_bound (fun i hi => L.existing_lt hi) (by omega)
    · omega
    · intro hzero
      exact L.onwards_of_lt (by omega)

/-- The handler of the tests, `create_local_to_global_handler`, for a conference with
deleted texts: its dense mapping has the number 0 for each of them. -/
def createLocalToGlobalHandler (L : LocalTexts) (first n : ℕ) : Except Exn TextMapping :=
  if first > L.highest then .error (.serverError ⟨.noSuchLocalText, first⟩)
  else
    let rangeEnd := min (first + n) (L.highest + 1)
    .ok { rangeBegin := first
          rangeEnd := rangeEnd
          laterTextsExists := if rangeEnd > L.highest then 0 else 1
          block := .dense first ((List.range' first (rangeEnd - first)).map fun i =>
            if L.existing i then L.globalNo i else 0) }

theorem denseList_map_range' (f : ℕ → ℕ) (first k : ℕ) :
    TextMapping.denseList first ((List.range' first k).map f) =
      (List.range' first k).map fun i => (i, f i) := by
  induction k generalizing first with
  | zero => rfl
  | succ k ih => simp only [List.range'_succ, List.map_cons, TextMapping.denseList, ih]

theorem createLocalToGlobalHandler_window (L : LocalTexts) :
    L.WindowServer (createLocalToGlobalHandler L) where
  beyond first n hfirst :=
    ⟨.serverError ⟨.noSuchLocalText, first⟩, if_pos hfirst, rfl⟩
  window first n hfirst := by
    refine ⟨_, if_neg (by omega), rfl, ⟨fun _ => true, ?_⟩, ?_⟩
    · simp [TextMapping.list, denseList_map_range', between]
    · simp only
      split <;> omega

/-- The loop over one gap fetches the texts in the gap. -/
theorem WindowServer.fetchGap {localToGlobal : ℕ → ℕ → Except Exn TextMapping}
    (h : L.WindowServer localToGlobal) (firstLocal gapLen : ℕ) (unread : List ℕ) (more : ℕ)
    (hmore : more = 0 → L.highest < firstLocal + gapLen) :
    ∃ more', Unread.fetchGap localToGlobal firstLocal gapLen unread more =
        .ok (unread ++ (between L.existing firstLocal (firstLocal + gapLen)).map L.globalNo,
          more') ∧
      (more' = 0 → L.highest < firstLocal + gapLen) := by
  induction gapLen using Nat.strong_induction_on generalizing firstLocal unread more with
  | _ gapLen ih => ?_
  rw [Unread.fetchGap]
  split
  · next hpos =>
    generalize hn : (if gapLen > 255 then 255 else gapLen) = n
    have hn_pos : 0 < n := by split at hn <;> omega
    have hn_le : n ≤ gapLen := by split at hn <;> omega
    rcases Nat.lt_or_ge L.highest firstLocal with hbeyond | hfirst
    · obtain ⟨e, heq, he⟩ := h.beyond firstLocal n hbeyond
      obtain ⟨more', hrun, hmore'⟩ := ih (gapLen - n) (by omega) firstLocal unread 0 (by omega)
      rw [L.between_of_beyond hbeyond] at hrun ⊢
      exact ⟨more', by simp only [heq, he, if_true, hrun], by omega⟩
    · obtain ⟨mapping, heq, hend, ⟨shown, hlist⟩, hlater⟩ := h.window firstLocal n hfirst
      obtain ⟨more', hrun, hmore'⟩ := ih (gapLen - n) (by omega) mapping.rangeEnd
        (unread ++ mapping.texts) mapping.laterTextsExists (by omega)
      refine ⟨more', ?_, by omega⟩
      have hcut : between L.existing firstLocal mapping.rangeEnd ++
          between L.existing mapping.rangeEnd (mapping.rangeEnd + (gapLen - n)) =
          between L.existing firstLocal (firstLocal + gapLen) := by
        rw [← between_append (p := L.existing) (show firstLocal ≤ mapping.rangeEnd by omega)
          (show mapping.rangeEnd ≤ firstLocal + gapLen by omega)]
        rcases Nat.le_total (firstLocal + n) (L.highest + 1) with hin | hout
        · congr 2
          omega
        · have hbeyond : L.highest < mapping.rangeEnd := by omega
          rw [L.between_of_beyond hbeyond, L.between_of_beyond hbeyond]
      simp only [heq]
      rw [hrun, texts_of_window hlist, ← hcut, List.map_append, List.append_assoc]
  · next hzero =>
    exact ⟨more, by simp [between_of_le (show firstLocal + gapLen ≤ firstLocal by omega)], hmore⟩

/-- The loop over all gaps fetches the texts in the gaps. The flag it leaves is 0 only
where nothing follows the last gap. -/
theorem WindowServer.fetchGaps {localToGlobal : ℕ → ℕ → Except Exn TextMapping}
    (h : L.WindowServer localToGlobal) {first last : ℕ} {gaps : List (ℕ × ℕ)}
    (hgaps : SortedGaps first last gaps) (unread : List ℕ) {more : ℕ}
    (hmore : more = 0 → L.highest < first) :
    ∃ more', Unread.fetchGaps localToGlobal gaps unread more =
        .ok (unread ++ (gaps.flatMap fun gap =>
          between L.existing gap.1 (gap.1 + gap.2)).map L.globalNo, more') ∧
      (more' = 0 → L.highest < last) := by
  induction gaps generalizing first unread more with
  | nil =>
    have hle := hgaps.le
    exact ⟨more, by simp [Unread.fetchGaps], by omega⟩
  | cons gap gaps ih =>
    obtain ⟨hfirst, -, hrest⟩ := hgaps
    obtain ⟨more₁, hgap, hmore₁⟩ := h.fetchGap gap.1 gap.2 unread more (by omega)
    obtain ⟨more', hrun, hmore'⟩ := ih hrest
      (unread ++ (between L.existing gap.1 (gap.1 + gap.2)).map L.globalNo) hmore₁
    refine ⟨more', ?_, hmore'⟩
    simp only [Unread.fetchGaps, hgap, hrun, List.flatMap_cons, List.map_append, List.append_assoc]

end LocalTexts

open LocalTexts

/-- **Unread texts from a window server.** Both clients return the global numbers of the
existing texts outside the read ranges, in increasing local order. -/
theorem getUnreadTexts_window {L : LocalTexts} {request : ℕ → ℕ → ℕ → Except Exn TextMapping}
    {membership : Membership} (hserver : L.WindowServer (request membership.conference))
    (hranges : SortedRanges membership.readRanges) :
    Returns (fun fuel => CachingClient.getUnreadTextsFromMembership fuel request membership)
        ((L.unread membership.readRanges).map L.globalNo) ∧
      Returns (fun fuel => AioCachingClient.getUnreadTextsFromMembership fuel request membership)
        ((L.unread membership.readRanges).map L.globalNo) := by
  have hsorted := hranges.sortedFrom
  obtain ⟨more, hgaps, hmore⟩ := hserver.fetchGaps hsorted.sortedGaps []
    (show 1 = 0 → L.highest < 1 by omega)
  rw [List.nil_append] at hgaps
  have hfound : ∀ i ∈ (gapsFrom 1 membership.readRanges).flatMap
      (fun gap => between L.existing gap.1 (gap.1 + gap.2)), L.existing i = true := by
    intro i hi
    obtain ⟨gap, -, hi⟩ := List.mem_flatMap.mp hi
    exact L.existing_of_mem_between hi
  have hrun := hserver.pages.getUnreadTexts hfound hgaps
  have htail : (if more = 0 then [] else L.onwards (lastFrom 1 membership.readRanges)) =
      L.onwards (lastFrom 1 membership.readRanges) := by
    split
    · next hzero => rw [L.onwards_of_lt (hmore hzero)]
    · rfl
  rw [htail, LocalTexts.onwards, ← between_unread (fun i hi => L.existing_lt hi) hsorted] at hrun
  exact ⟨hrun, hrun⟩

/-- Four local texts, the third of them deleted and the first one read. -/
def sampleTexts : LocalTexts where
  existing i := 1 ≤ i && i ≤ 4 && i != 3
  highest := 4
  globalNo i := 100 - i
  existing_bounds i h := by simp at h; omega
  globalNo_injective i j hi hj h := by simp at hi hj; omega
  globalNo_ne_zero i h := by simp at h; omega

def sampleMembership : Membership where
  position := 0
  lastTimeRead := ⟨0, 0, 0, 0, 0, 0, 0, 0, 0⟩
  conference := 7
  priority := 100
  readRanges := [⟨1, 1⟩]
  addedBy := 5
  addedAt := ⟨0, 0, 0, 0, 0, 0, 0, 0, 0⟩
  type := ⟨[false, false, false, false, false, false, false, false], rfl⟩

theorem getUnreadTexts_window_sample :
    Returns (fun fuel => CachingClient.getUnreadTextsFromMembership fuel
        (fun _ => createLocalToGlobalHandler sampleTexts) sampleMembership) [98, 96] ∧
      Returns (fun fuel => AioCachingClient.getUnreadTextsFromMembership fuel
        (fun _ => createLocalToGlobalHandler sampleTexts) sampleMembership) [98, 96] := by
  have hranges : SortedRanges sampleMembership.readRanges := ⟨by decide, by decide⟩
  have hunread : (sampleTexts.unread sampleMembership.readRanges).map sampleTexts.globalNo =
      [98, 96] := by decide
  rw [← hunread]
  exact @getUnreadTexts_window sampleTexts (fun _ => createLocalToGlobalHandler sampleTexts)
    sampleMembership (createLocalToGlobalHandler_window sampleTexts) hranges

end Pylyskom
