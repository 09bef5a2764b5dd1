import Mathlib.Order.Bounds.Basic
import Pylyskom.ReadRanges

/-!
# Gaps, ranges and the tail

The gaps, the read ranges and the numbers from `last` on are a partition of the local numbers.
-/

namespace Pylyskom

/-- A local number is in a gap, which is given by its first text and its length. -/
def inGap (x : ℕ) (gap : ℕ × ℕ) : Bool := gap.1 ≤ x ∧ x < gap.1 + gap.2

/-- A local number is in a read range. -/
def inRange (x : ℕ) (r : ReadRange) : Bool := r.firstRead ≤ x ∧ x ≤ r.lastRead

/-- How many of the gaps, the ranges and the tail a local number is in. -/
def pieceCount (gaps : List (ℕ × ℕ)) (readRanges : List ReadRange) (last x : ℕ) : ℕ :=
  gaps.countP (inGap x) + readRanges.countP (inRange x) + if last ≤ x then 1 else 0

/-- The gaps, the ranges and the tail are a partition, the gaps are nonempty and in order and
have numbers between them, and the tail begins after the highest number that is read. -/
structure Partition (readRanges : List ReadRange) (gaps : List (ℕ × ℕ)) (last : ℕ) : Prop where
  one : ∀ x, 1 ≤ x → pieceCount gaps readRanges last x = 1
  length_pos : ∀ gap ∈ gaps, 0 < gap.2
  apart : gaps.Pairwise fun gap gap' => gap.1 + gap.2 < gap'.1
  last_nil : readRanges = [] → last = 1
  last_eq : readRanges ≠ [] →
    ∃ highest, IsGreatest {x | isRead readRanges x = true} highest ∧ last = highest + 1

variable {last x : ℕ} {readRanges : List ReadRange}

/-- Everything that follows in order from `last` on is at `last` or after it. -/
theorem SortedFrom.le_of_mem_gapsFrom (h : SortedFrom last readRanges) {gap : ℕ × ℕ}
    (hgap : gap ∈ gapsFrom last readRanges) : last ≤ gap.1 ∧ 0 < gap.2 := by
  induction readRanges generalizing last with
  | nil => cases hgap
  | cons r rs ih =>
    obtain ⟨hfirst, hle, hrest⟩ := h
    rw [gapsFrom] at hgap
    split at hgap
    · next hpos =>
      rcases List.mem_cons.mp hgap with rfl | hgap
      · exact ⟨Nat.le_refl last, hpos⟩
      · have hlater := ih hrest hgap
        exact ⟨by omega, hlater.2⟩
    · have hlater := ih hrest hgap
      exact ⟨by omega, hlater.2⟩

/-- The range behind a gap separates it from the next one. -/
theorem SortedFrom.apart (h : SortedFrom last readRanges) :
    (gapsFrom last readRanges).Pairwise fun gap gap' => gap.1 + gap.2 < gap'.1 := by
  induction readRanges generalizing last with
  | nil => exact List.Pairwise.nil
  | cons r rs ih =>
    obtain ⟨hfirst, hle, hrest⟩ := h
    rw [gapsFrom]
    split
    · refine List.pairwise_cons.mpr ⟨fun gap hgap => ?_, ih hrest⟩
      have hlater := (hrest.le_of_mem_gapsFrom hgap).1
      change last + (r.firstRead - last) < gap.1
      omega
    · exact ih hrest

/-- No piece holds a number before `last`. -/
theorem SortedFrom.pieceCount_eq_zero (h : SortedFrom last readRanges) (hx : x < last) :
    pieceCount (gapsFrom last readRanges) readRanges (lastFrom last readRanges) x = 0 := by
  have hgaps : (gapsFrom last readRanges).countP (inGap x) = 0 := by
    rw [List.countP_eq_zero]
    intro gap hgap
    have hle := (h.le_of_mem_gapsFrom hgap).1
    simp only [inGap, decide_eq_true_eq]
    omega
  have hranges : readRanges.countP (inRange x) = 0 := by
    have hread := h.isRead_eq_false hx
    rw [isRead, List.any_eq_false] at hread
    exact List.countP_eq_zero.mpr hread
  have htail : ¬ lastFrom last readRanges ≤ x := by
    have hle := h.sortedGaps.le
    omega
  rw [pieceCount, hgaps, hranges, if_neg htail]

/-- Each number from `last` on is in one piece: in the gap before the first range, in this
range, or behind it, where the pieces are those of the other ranges. -/
theorem SortedFrom.pieceCount_eq_one (h : SortedFrom last readRanges) (hx : last ≤ x) :
    pieceCount (gapsFrom last readRanges) readRanges (lastFrom last readRanges) x = 1 := by
  induction readRanges generalizing last with
  | nil => simp [pieceCount, gapsFrom, lastFrom, hx]
  | cons r rs ih =>
    obtain ⟨hfirst, hle, hrest⟩ := h
    have hgap : (gapsFrom last (r :: rs)).countP (inGap x) =
        (gapsFrom (r.lastRead + 1) rs).countP (inGap x) + if x < r.firstRead then 1 else 0 := by
      rw [gapsFrom]
      split
      · next hpos =>
        rw [List.countP_cons]
        congr 1
        refine if_congr ?_ rfl rfl
        simp only [inGap, decide_eq_true_eq]
        omega
      · rw [if_neg (by omega)]
        rfl
    have hrange : (r :: rs).countP (inRange x) =
        rs.countP (inRange x) + if r.firstRead ≤ x ∧ x ≤ r.lastRead then 1 else 0 := by
      rw [List.countP_cons]
      congr 1
      exact if_congr (by simp [inRange]) rfl rfl
    rw [pieceCount, hgap, hrange, lastFrom]
    by_cases hlater : r.lastRead + 1 ≤ x
    · have hcount := ih hrest hlater
      rw [pieceCount] at hcount
      rw [if_neg (by omega), if_neg (by omega)]
      omega
    · have hcount := hrest.pieceCount_eq_zero (Nat.not_le.mp hlater)
      rw [pieceCount] at hcount
      by_cases hbefore : x < r.firstRead
      · rw [if_pos hbefore, if_neg (by omega)]
        omega
      · rw [if_neg hbefore, if_pos (by omega)]
        omega

/-- The last range ends with the highest number that is read. -/
theorem SortedFrom.isGreatest (h : SortedFrom last readRanges) (hne : readRanges ≠ []) :
    ∃ highest, IsGreatest {x | isRead readRanges x = true} highest ∧
      lastFrom last readRanges = highest + 1 := by
  induction readRanges generalizing last with
  | nil => exact absurd rfl hne
  | cons r rs ih =>
    obtain ⟨hfirst, hle, hrest⟩ := h
    have hread (x : ℕ) : isRead (r :: rs) x = true ↔
        (r.firstRead ≤ x ∧ x ≤ r.lastRead) ∨ isRead rs x = true := by
      simp [isRead]
    cases rs with
    | nil =>
      refine ⟨r.lastRead, ⟨(hread _).mpr (Or.inl ⟨hle, Nat.le_refl _⟩), fun x hx => ?_⟩, rfl⟩
      rcases (hread x).mp hx with hx | hx
      · exact hx.2
      · cases hx
    | cons r' rs =>
      obtain ⟨highest, ⟨hhighest, hupper⟩, hlast⟩ := ih hrest (List.cons_ne_nil r' rs)
      have hlt : r.lastRead < highest := by
        by_contra hnot
        have hfalse := hrest.isRead_eq_false (x := highest) (by omega)
        change isRead (r' :: rs) highest = true at hhighest
        rw [hfalse] at hhighest
        cases hhighest
      refine ⟨highest, ⟨(hread _).mpr (Or.inr hhighest), fun x hx => ?_⟩, hlast⟩
      rcases (hread x).mp hx with hx | hx
      · omega
      · exact hupper hx

/-- **Every local number is in exactly one gap, in exactly one range or in the tail.** -/
theorem readRangesToGapsAndLast_partition (h : SortedRanges readRanges) :
    Partition readRanges (readRangesToGapsAndLast readRanges).1
      (readRangesToGapsAndLast readRanges).2 := by
  rw [readRangesToGapsAndLast_eq]
  exact {
    one := fun x hx => h.sortedFrom.pieceCount_eq_one hx
    length_pos := fun gap hgap => (h.sortedFrom.le_of_mem_gapsFrom hgap).2
    apart := h.sortedFrom.apart
    last_nil := by
      rintro rfl
      rfl
    last_eq := h.sortedFrom.isGreatest }

/-- Two adjacent ranges, and two gaps. -/
theorem readRangesToGapsAndLast_partition_four :
    Partition [⟨1, 1⟩, ⟨2, 3⟩, ⟨5, 5⟩, ⟨8, 10⟩] [(4, 1), (6, 2)] 11 := by
  have h : SortedRanges [⟨1, 1⟩, ⟨2, 3⟩, ⟨5, 5⟩, ⟨8, 10⟩] := ⟨by decide, by decide⟩
  exact readRangesToGapsAndLast_partition h

end Pylyskom
