import Pylyskom.Datatypes
import Pylyskom.Collections.Between

/-!
# Read ranges and the gaps between them

`read_ranges_to_gaps_and_last` of `utils.py`. For sorted ranges, the texts outside the
ranges are those in the gaps together with those from `last` on.
-/

namespace Pylyskom

/-- The gaps in the read ranges, each with its first text and its length, and the first
possibly unread text after the last read range. -/
def readRangesToGapsAndLast (readRanges : List ReadRange) : List (ℕ × ℕ) × ℕ :=
  readRanges.foldl
    (fun (gaps, last) readRange =>
      let gap := readRange.firstRead - last
      (if gap > 0 then gaps ++ [(last, gap)] else gaps, readRange.lastRead + 1))
    ([], 1)

/-- Read ranges as the server keeps them: nonempty, in order and without overlap. -/
structure SortedRanges (readRanges : List ReadRange) : Prop where
  bounds : ∀ r ∈ readRanges, 1 ≤ r.firstRead ∧ r.firstRead ≤ r.lastRead
  sorted : readRanges.Pairwise fun r r' => r.lastRead < r'.firstRead

/-- A local number is in one of the ranges. -/
def isRead (readRanges : List ReadRange) (localNo : ℕ) : Bool :=
  readRanges.any fun r => r.firstRead ≤ localNo ∧ localNo ≤ r.lastRead

/-- The gaps of ranges that follow the number before `last`. -/
def gapsFrom (last : ℕ) : List ReadRange → List (ℕ × ℕ)
  | [] => []
  | r :: rs =>
    if r.firstRead - last > 0 then (last, r.firstRead - last) :: gapsFrom (r.lastRead + 1) rs
    else gapsFrom (r.lastRead + 1) rs

/-- The first number after such ranges. -/
def lastFrom (last : ℕ) : List ReadRange → ℕ
  | [] => last
  | r :: rs => lastFrom (r.lastRead + 1) rs

/-- The loop collects the gaps of one range after the other. -/
theorem readRangesToGapsAndLast_eq (readRanges : List ReadRange) :
    readRangesToGapsAndLast readRanges = (gapsFrom 1 readRanges, lastFrom 1 readRanges) := by
  have hloop : ∀ (rs : List ReadRange) (gaps : List (ℕ × ℕ)) (last : ℕ),
      rs.foldl (fun (gaps, last) readRange =>
        let gap := readRange.firstRead - last
        (if gap > 0 then gaps ++ [(last, gap)] else gaps, readRange.lastRead + 1)) (gaps, last) =
      (gaps ++ gapsFrom last rs, lastFrom last rs) := by
    intro rs
    induction rs with
    | nil => simp [gapsFrom, lastFrom]
    | cons r rs ih =>
      intro gaps last
      simp only [List.foldl_cons, ih, gapsFrom, lastFrom]
      split <;> simp
  exact hloop readRanges [] 1

/-- Ranges in order from `last` on. -/
def SortedFrom (last : ℕ) : List ReadRange → Prop
  | [] => True
  | r :: rs => last ≤ r.firstRead ∧ r.firstRead ≤ r.lastRead ∧ SortedFrom (r.lastRead + 1) rs

theorem SortedRanges.sortedFrom {readRanges : List ReadRange} (h : SortedRanges readRanges) :
    SortedFrom 1 readRanges := by
  have hrec : ∀ (rs : List ReadRange) (last : ℕ), SortedRanges rs → (∀ r ∈ rs, last ≤ r.firstRead) →
      SortedFrom last rs := by
    intro rs
    induction rs with
    | nil => intros; trivial
    | cons r rs ih =>
      intro last hrs hlast
      obtain ⟨hlt, hsorted⟩ := List.pairwise_cons.mp hrs.sorted
      refine ⟨hlast r List.mem_cons_self, (hrs.bounds r List.mem_cons_self).2, ?_⟩
      exact ih _ ⟨fun x hx => hrs.bounds x (List.mem_cons_of_mem r hx), hsorted⟩
        fun x hx => hlt x hx
  exact hrec readRanges 1 h fun r hr => (h.bounds r hr).1

/-- No range in order from `last` on reads a smaller number. -/
theorem SortedFrom.isRead_eq_false {last x : ℕ} {readRanges : List ReadRange}
    (h : SortedFrom last readRanges) (hx : x < last) : isRead readRanges x = false := by
  induction readRanges generalizing last with
  | nil => rfl
  | cons r rs ih =>
    obtain ⟨hfirst, hle, hrest⟩ := h
    have hrs := ih hrest (by omega)
    simp only [isRead, List.any_cons, Bool.or_eq_false_iff] at hrs ⊢
    refine ⟨?_, hrs⟩
    simp only [decide_eq_false_iff_not]
    omega

/-- Gaps in order from `first` on, all of them before `last`. -/
def SortedGaps (first last : ℕ) : List (ℕ × ℕ) → Prop
  | [] => first ≤ last
  | gap :: gaps => first ≤ gap.1 ∧ 0 < gap.2 ∧ SortedGaps (gap.1 + gap.2) last gaps

theorem SortedGaps.of_le {first first' last : ℕ} {gaps : List (ℕ × ℕ)}
    (h : SortedGaps first last gaps) (hle : first' ≤ first) : SortedGaps first' last gaps := by
  cases gaps with
  | nil => exact Nat.le_trans hle h
  | cons gap gaps => exact ⟨Nat.le_trans hle h.1, h.2⟩

theorem SortedGaps.le {first last : ℕ} {gaps : List (ℕ × ℕ)} (h : SortedGaps first last gaps) :
    first ≤ last := by
  induction gaps generalizing first with
  | nil => exact h
  | cons gap gaps ih =>
    have := h.1
    have := ih h.2.2
    omega

/-- The gaps in sorted ranges are in order. -/
theorem SortedFrom.sortedGaps {last : ℕ} {readRanges : List ReadRange}
    (h : SortedFrom last readRanges) :
    SortedGaps last (lastFrom last readRanges) (gapsFrom last readRanges) := by
  induction readRanges generalizing last with
  | nil => exact Nat.le_refl last
  | cons r rs ih =>
    obtain ⟨hfirst, hle, hrest⟩ := h
    have hgaps := ih hrest
    rw [gapsFrom, lastFrom]
    split
    · next hpos => exact ⟨Nat.le_refl last, hpos, hgaps.of_le (by simp only; omega)⟩
    · exact hgaps.of_le (by omega)

/-- **The unread texts**, of those in a set without members from `bound` on, are in the
gaps and after the last range, piece by piece. -/
theorem between_unread {p : ℕ → Bool} {bound last : ℕ} {readRanges : List ReadRange}
    (hp : ∀ x, p x = true → x < bound) (h : SortedFrom last readRanges) :
    between (fun x => p x && !isRead readRanges x) last bound =
      (gapsFrom last readRanges).flatMap (fun gap => between p gap.1 (gap.1 + gap.2)) ++
        between p (lastFrom last readRanges) bound := by
  induction readRanges generalizing last with
  | nil => simp [isRead, gapsFrom, lastFrom]
  | cons r rs ih =>
    obtain ⟨hfirst, hle, hrest⟩ := h
    have hq : ∀ x, (p x && !isRead (r :: rs) x) = true → x < bound := by
      intro x hx
      simp only [Bool.and_eq_true] at hx
      exact hp x hx.1
    have hread : ∀ x, isRead (r :: rs) x =
        (decide (r.firstRead ≤ x ∧ x ≤ r.lastRead) || isRead rs x) := fun x => rfl
    have hgap : between (fun x => p x && !isRead (r :: rs) x) last r.firstRead =
        between p last r.firstRead := by
      refine between_congr fun x _ hx => ?_
      rw [hread, hrest.isRead_eq_false (by omega)]
      simp [Nat.not_le.mpr hx]
    have hrange :
        between (fun x => p x && !isRead (r :: rs) x) r.firstRead (r.lastRead + 1) = [] := by
      refine between_eq_nil_iff.mpr fun x hx hx' => ?_
      have hle' : x ≤ r.lastRead := by omega
      simp [hread, hx, hle']
    have hlater : between (fun x => p x && !isRead (r :: rs) x) (r.lastRead + 1) bound =
        between (fun x => p x && !isRead rs x) (r.lastRead + 1) bound := by
      refine between_congr fun x hx _ => ?_
      have hlt : ¬ x ≤ r.lastRead := by omega
      simp [hread, hlt]
    rw [← between_append_of_bound hq hfirst, ← between_append_of_bound hq (Nat.le_succ_of_le hle),
      hgap, hrange, hlater, ih hrest, List.nil_append, gapsFrom, lastFrom]
    split
    · next hpos => simp [Nat.add_sub_cancel' hfirst]
    · next hzero =>
      rw [between_of_le (by omega), List.nil_append]

end Pylyskom
