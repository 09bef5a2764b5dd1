import Pylyskom.Protocol.Integers
import Pylyskom.UserArea.Termination

/-!
# Two parsers of Hollerith strings

`parse_hollerith_string` takes a string from the front of a byte string, `String.parse` from
a receive buffer. They agree where the string is there in full. Where bytes are missing at
its end the first one returns what there is and the second one waits for the rest, and
where there is only white space the first one does not end.
-/

namespace Pylyskom

/-- The two parsers return the same strings and leave the same bytes, and where
`String.parse` does not return, `parse_hollerith_string` raises an exception. -/
structure ParsersAgree (b : Bytes) : Prop where
  returns : ∀ s rest, (∃ fuel, parseHollerithString fuel (some b) = pure (some s, some rest)) ↔
    String.parse.run b = .returned s rest
  raises : (∀ s rest, String.parse.run b ≠ .returned s rest) →
    ∃ fuel e, parseHollerithString fuel (some b) = throw e

/-- Fewer bytes follow the `H` than the length says. -/
def Truncated (b : Bytes) : Prop :=
  ∃ pre num tail, b = pre ++ (num ++ 'H'.toUInt8 :: tail) ∧
    (∀ c ∈ pre, whitespace.contains c = true) ∧ (∀ c ∈ num, digits.contains c = true) ∧
    tail.length < lengthOf num

theorem intText_length {pre num : Bytes} (hpre : ∀ c ∈ pre, whitespace.contains c = true)
    (hnum : ∀ c ∈ num, digits.contains c = true) :
    IntText (pre ++ (num ++ ['H'.toUInt8])) (lengthOf num) 'H'.toUInt8 :=
  ⟨pre, num, rfl, hpre, hnum, by decide, fun _ => by decide, rfl⟩

/-- A string is read from the buffer if it is there. -/
theorem run_stringParse {pre num tail : Bytes}
    (hpre : ∀ c ∈ pre, whitespace.contains c = true)
    (hnum : ∀ c ∈ num, digits.contains c = true) :
    String.parse.run (pre ++ (num ++ 'H'.toUInt8 :: tail)) =
      if lengthOf num ≤ tail.length then
        .returned (tail.take (lengthOf num)) (tail.drop (lengthOf num))
      else .starved tail := by
  have hlength := run_readIntAndNext_text (intText_length hpre hnum) tail
  have hbytes : pre ++ (num ++ 'H'.toUInt8 :: tail) = pre ++ (num ++ ['H'.toUInt8]) ++ tail := by
    simp
  rw [hbytes, String.parse, Reader.run_bind, hlength]
  simp only [Outcome.andThen_returned, ne_eq, not_true_eq_false, if_false, Reader.string,
    Reader.run]

/-- And only such a string is. -/
theorem item_of_stringParse {b s rest : Bytes} (h : String.parse.run b = .returned s rest) :
    Item b s rest := by
  rcases readIntAndNext_cases b with ⟨r, hr⟩ | ⟨t, length, d, tail, rfl, htext⟩
  · rw [String.parse, Reader.run_bind, hr] at h
    cases h
  · have hlength := run_readIntAndNext_text htext tail
    rw [String.parse, Reader.run_bind, hlength] at h
    obtain ⟨pre, num, rfl, hpre, hnum, -, -, rfl⟩ := htext
    by_cases hletter : d = 'H'.toUInt8
    · subst hletter
      simp only [Outcome.andThen_returned, ne_eq, not_true_eq_false, if_false, Reader.string,
        Reader.run] at h
      split at h
      · cases h
        exact ⟨pre, num, tail, by simp, hpre, hnum, rfl, rfl⟩
      · cases h
    · simp [hletter, protocolError] at h

/-- Enough fuel gives the value that the loops reach. -/
theorem Loops.Reaches.exists_eq_iff {α : Type} {f : ℕ → Loops α} {x y : Loops α}
    (h : Loops.Reaches f x) (hy : y ≠ ExceptT.mk none) : (∃ fuel, f fuel = y) ↔ x = y := by
  constructor
  · rintro ⟨fuel, hfuel⟩
    rcases h.always fuel with hnone | hx
    · exact absurd (hfuel.symm.trans hnone) hy
    · exact hx.symm.trans hfuel
  · rintro rfl
    obtain ⟨n, hn⟩ := h.eventually
    exact ⟨n, hn n (Nat.le_refl n)⟩

theorem not_parsersAgree_blank {b : Bytes} (h : Blank b) : ¬ ParsersAgree b := by
  intro hagree
  have hreaches := reaches_blank h
  have hnot : ∀ s rest, String.parse.run b ≠ .returned s rest := by
    intro s rest hrun
    obtain ⟨fuel, hfuel⟩ := (hagree.returns s rest).mpr hrun
    exact Loops.none_ne_pure
      ((hreaches.exists_eq_iff Loops.none_ne_pure.symm).mp ⟨fuel, hfuel⟩)
  obtain ⟨fuel, e, hraise⟩ := hagree.raises hnot
  exact Loops.throw_ne_none e
    ((hreaches.exists_eq_iff (Loops.throw_ne_none e)).mp ⟨fuel, hraise⟩).symm

theorem Truncated.item {b : Bytes} (h : Truncated b) : ∃ s rest, Item b s rest := by
  obtain ⟨pre, num, tail, rfl, hpre, hnum, -⟩ := h
  exact ⟨_, _, pre, num, tail, rfl, hpre, hnum, rfl, rfl⟩

/-- A string that is cut short leaves the buffer waiting. -/
theorem Truncated.starved {b : Bytes} (h : Truncated b) : ∃ r, String.parse.run b = .starved r := by
  obtain ⟨pre, num, tail, rfl, hpre, hnum, hlt⟩ := h
  exact ⟨tail, by rw [run_stringParse hpre hnum, if_neg (by omega)]⟩

/-- A string that is there in full is returned by both parsers. -/
theorem parsersAgree_of_returned {b s rest : Bytes}
    (hrun : String.parse.run b = .returned s rest) : ParsersAgree b := by
  have hreaches := reaches_item (item_of_stringParse hrun)
  constructor
  · intro s' rest'
    rw [hreaches.exists_eq_iff Loops.none_ne_pure.symm, hrun]
    constructor
    · intro h
      cases Loops.pure_inj.mp h
      rfl
    · intro h
      cases h
      rfl
  · exact fun hnot => absurd hrun (hnot s rest)

/-- No valid string is returned by neither. -/
theorem parsersAgree_of_raises {b : Bytes} {e : Exn}
    (hraise : Loops.Reaches (fun fuel => parseHollerithString fuel (some b)) (throw e)) :
    ParsersAgree b := by
  constructor
  · intro s rest
    rw [hraise.exists_eq_iff Loops.none_ne_pure.symm]
    refine ⟨fun h => absurd h Loops.throw_ne_pure, fun hrun => ?_⟩
    exact hraise.unique (reaches_item (item_of_stringParse hrun))
  · exact fun _ => ((hraise.exists_eq_iff (Loops.throw_ne_none e)).mpr rfl).imp fun _ h => ⟨e, h⟩

/-- A string that is cut short is returned by `parse_hollerith_string` only. -/
theorem not_parsersAgree_truncated {b : Bytes} (h : Truncated b) : ¬ ParsersAgree b := by
  intro hagree
  obtain ⟨s, rest, hitem⟩ := h.item
  obtain ⟨r, hr⟩ := h.starved
  have hreturned := (hagree.returns s rest).mp
    (((reaches_item hitem).exists_eq_iff Loops.none_ne_pure.symm).mpr rfl)
  rw [hr] at hreturned
  cases hreturned

/-- The parsers agree unless there is only white space, or the string is cut short. -/
theorem parsersAgree_iff {b : Bytes} (hne : b ≠ []) :
    ParsersAgree b ↔ ¬ Blank b ∧ ¬ Truncated b := by
  constructor
  · exact fun h => ⟨fun hblank => not_parsersAgree_blank hblank h,
      fun htruncated => not_parsersAgree_truncated htruncated h⟩
  · rintro ⟨hblank, htruncated⟩
    rcases item_cases b hne with h | ⟨s, rest, hitem⟩ | ⟨e, hraise⟩
    · exact absurd h hblank
    · obtain ⟨pre, num, tail, rfl, hpre, hnum, rfl, rfl⟩ := hitem
      have hle : lengthOf num ≤ tail.length := by
        by_contra hlt
        exact htruncated ⟨pre, num, tail, rfl, hpre, hnum, by omega⟩
      exact parsersAgree_of_returned (by rw [run_stringParse hpre hnum, if_pos hle])
    · exact parsersAgree_of_raises hraise

theorem parsersAgree_three : ParsersAgree (ascii " 3Habcd") ↔
    ¬ Blank (ascii " 3Habcd") ∧ ¬ Truncated (ascii " 3Habcd") :=
  parsersAgree_iff (by decide)

/-- Of a string of five bytes the two that are there are returned. -/
theorem not_parsersAgree_five : ¬ ParsersAgree (ascii "5Hab") := by
  intro h
  have hrun : parseHollerithString 1 (some (ascii "5Hab")) = pure (some (ascii "ab"), some []) :=
    rfl
  have hreturned := (h.returns (ascii "ab") []).mp ⟨1, hrun⟩
  cases hreturned

end Pylyskom
