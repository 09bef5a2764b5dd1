import Pylyskom.Reader.Tokens

/-!
# Separators before the last byte

How many separators the lines of a text form have at least before their last byte. Between
two parts of a form there is one, whatever the parts may be.
-/

namespace Pylyskom.Spacing

variable (S : Spacing)

/-- No line of the form is empty, and each has at least so many separators before its last
byte. -/
def Gaps (k : ℕ) (L : Language (List UInt8)) : Prop :=
  ∀ ts ∈ L, S.text ts ≠ [] ∧ k ≤ (S.text ts).dropLast.count S.sep

variable {S} {k l : ℕ} {L M : Language (List UInt8)}

theorem Gaps.mono (h : S.Gaps k L) (hle : l ≤ k) : S.Gaps l L :=
  fun ts hts => ⟨(h ts hts).1, hle.trans (h ts hts).2⟩

theorem gaps_token {t : List UInt8} (ht : t ≠ []) : S.Gaps 0 {[t]} := by
  rintro ts rfl
  exact ⟨by simpa using ht, Nat.zero_le _⟩

theorem Gaps.add (hL : S.Gaps k L) (hM : S.Gaps k M) : S.Gaps k (L + M) := by
  rintro ts (hts | hts)
  · exact hL ts hts
  · exact hM ts hts

theorem ne_nil_of_text {ts : List (List UInt8)} (h : S.text ts ≠ []) : ts ≠ [] := by
  rintro rfl
  exact h S.text_nil

/-- The last byte of two lines that are joined is that of the second one. -/
theorem dropLast_text_append {ts us : List (List UInt8)} (hts : ts ≠ [])
    (hus : S.text us ≠ []) :
    (S.text (ts ++ us)).dropLast = S.text ts ++ S.sep :: (S.text us).dropLast := by
  rw [S.text_append hts (ne_nil_of_text hus),
    List.dropLast_append_of_ne_nil (List.cons_ne_nil _ _), List.dropLast_cons_of_ne_nil hus]

theorem count_dropLast_le (s : List UInt8) : s.dropLast.count S.sep ≤ s.count S.sep :=
  (List.dropLast_sublist s).count_le S.sep

/-- **Two parts that are joined** have their separators, and one more. -/
theorem Gaps.mul (hL : S.Gaps k L) (hM : S.Gaps l M) : S.Gaps (k + l + 1) (L * M) := by
  rintro ts hts
  obtain ⟨us, hus, vs, hvs, rfl⟩ := Language.mem_mul.mp hts
  obtain ⟨hune, hucount⟩ := hL us hus
  obtain ⟨hvne, hvcount⟩ := hM vs hvs
  have hle := count_dropLast_le (S := S) (S.text us)
  constructor
  · rw [S.text_append (ne_nil_of_text hune) (ne_nil_of_text hvne)]
    exact List.append_ne_nil_of_left_ne_nil hune _
  · rw [dropLast_text_append (ne_nil_of_text hune) hvne, List.count_append,
      List.count_cons_self]
    omega

/-- Any part may follow. -/
theorem Gaps.mul_right (hL : S.Gaps k L) (M : Language (List UInt8)) : S.Gaps k (L * M) := by
  rintro ts hts
  obtain ⟨us, hus, vs, -, rfl⟩ := Language.mem_mul.mp hts
  obtain ⟨hne, hcount⟩ := hL us hus
  by_cases hvs : vs = []
  · rw [hvs, List.append_nil]
    exact ⟨hne, hcount⟩
  · have htext := S.text_append (ne_nil_of_text hne) hvs
    have hsub : (S.text us).Sublist (S.text (us ++ vs)).dropLast := by
      rw [htext, List.dropLast_append_of_ne_nil (List.cons_ne_nil _ _)]
      exact List.sublist_append_left _ _
    have hle := hsub.count_le S.sep
    have hle' := count_dropLast_le (S := S) (S.text us)
    refine ⟨?_, by omega⟩
    rw [htext]
    exact List.append_ne_nil_of_left_ne_nil hne _

/-- Any part may stand before. -/
theorem Gaps.mul_left (L : Language (List UInt8)) (hM : S.Gaps k M) : S.Gaps k (L * M) := by
  rintro ts hts
  obtain ⟨us, -, vs, hvs, rfl⟩ := Language.mem_mul.mp hts
  obtain ⟨hne, hcount⟩ := hM vs hvs
  by_cases hus : us = []
  · rw [hus, List.nil_append]
    exact ⟨hne, hcount⟩
  · constructor
    · rw [S.text_append hus (ne_nil_of_text hne)]
      simp
    · rw [dropLast_text_append hus hne, List.count_append, List.count_cons_self]
      omega

end Pylyskom.Spacing
