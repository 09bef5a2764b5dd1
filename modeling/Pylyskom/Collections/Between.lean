import Mathlib.Data.List.Range
import Mathlib.Order.Basic
import Mathlib.Data.Nat.Notation

/-!
# The members of a set between two numbers

A decidable set of natural numbers is cut into consecutive pieces. Each piece is the
increasing list of its members, so gluing pieces is appending lists.
-/

namespace Pylyskom

/-- The members of `p` from `a` up to but not including `b`, in increasing order. -/
def between (p : ℕ → Bool) (a b : ℕ) : List ℕ := (List.range' a (b - a)).filter p

variable {p : ℕ → Bool} {a b c x : ℕ}

@[simp] theorem mem_between : x ∈ between p a b ↔ a ≤ x ∧ x < b ∧ p x = true := by
  simp only [between, List.mem_filter, List.mem_range'_1, and_assoc]
  constructor
  · rintro ⟨h1, h2, h3⟩
    exact ⟨h1, by omega, h3⟩
  · rintro ⟨h1, h2, h3⟩
    exact ⟨h1, by omega, h3⟩

theorem pairwise_between (p : ℕ → Bool) (a b : ℕ) : (between p a b).Pairwise (· < ·) :=
  List.Pairwise.filter _ List.pairwise_lt_range'

/-- Two adjacent pieces make one. -/
theorem between_append (hab : a ≤ b) (hbc : b ≤ c) :
    between p a b ++ between p b c = between p a c := by
  have hrange := List.range'_append_1 (s := a) (m := b - a) (n := c - b)
  rw [Nat.add_sub_cancel' hab] at hrange
  rw [between, between, between, ← List.filter_append, hrange]
  congr 2
  omega

/-- There is nothing between a number and a smaller one. -/
theorem between_of_le (h : b ≤ a) : between p a b = [] := by
  rw [between, Nat.sub_eq_zero_of_le h]
  rfl

/-- Sets that agree on a piece have the same members there. -/
theorem between_congr {q : ℕ → Bool} (h : ∀ x, a ≤ x → x < b → p x = q x) :
    between p a b = between q a b := by
  refine List.filter_congr fun x hx => ?_
  rw [List.mem_range'_1] at hx
  exact h x hx.1 (by omega)

theorem between_eq_nil_iff : between p a b = [] ↔ ∀ x, a ≤ x → x < b → p x = false := by
  rw [List.eq_nil_iff_forall_not_mem]
  simp only [mem_between, not_and, Bool.not_eq_true]

/-- Cutting at any later number, also one above all members. -/
theorem between_append_of_bound (hp : ∀ x, p x = true → x < c) (hab : a ≤ b) :
    between p a b ++ between p b c = between p a c := by
  rcases Nat.le_total b c with hbc | hcb
  · exact between_append hab hbc
  · have hnone : ∀ d, between p c d = [] := fun d => between_eq_nil_iff.mpr fun x hx _ => by
      by_contra hpx
      have := hp x (by simpa using hpx)
      omega
    rw [between_of_le hcb, List.append_nil]
    rcases Nat.le_total a c with hac | hca
    · rw [← between_append hac hcb, hnone, List.append_nil]
    · rw [between_of_le hca]
      exact between_eq_nil_iff.mpr fun x hx _ => by
        by_contra hpx
        have := hp x (by simpa using hpx)
        omega

/-- A set that contains everything has all the numbers of a piece. -/
theorem length_between_eq_iff :
    (between p a b).length = b - a ↔ ∀ x, a ≤ x → x < b → p x = true := by
  have hlen : (List.range' a (b - a)).length = b - a := List.length_range'
  have hall : (between p a b).length = b - a ↔ ∀ x ∈ List.range' a (b - a), p x = true := by
    rw [between, ← List.length_filter_eq_length_iff, hlen]
  rw [hall]
  simp only [List.mem_range'_1]
  constructor
  · exact fun h x hax hxb => h x ⟨hax, by omega⟩
  · exact fun h x hx => h x hx.1 (by omega)

theorem length_between_le (p : ℕ → Bool) (a b : ℕ) : (between p a b).length ≤ b - a := by
  simpa [between] using List.length_filter_le p (List.range' a (b - a))

/-- Taking some of the first members of a piece stops right after the last one taken. -/
theorem between_eq_take {n : ℕ} (hn : 0 < n) (hlen : n ≤ (between p a b).length) :
    ∃ last, ((between p a b).take n).getLast? = some last ∧ a ≤ last ∧ last < b ∧
      (between p a b).take n = between p a (last + 1) ∧
      (between p a b).drop n = between p (last + 1) b := by
  obtain ⟨k, rfl⟩ : ∃ k, n = k + 1 := ⟨n - 1, by omega⟩
  have hk : k < (between p a b).length := hlen
  set last := (between p a b)[k] with hlast
  have hmem : last ∈ between p a b := List.getElem_mem hk
  obtain ⟨ha, hb, hp⟩ := mem_between.mp hmem
  have hdrop : (between p a b).drop k = last :: (between p a b).drop (k + 1) :=
    List.drop_eq_getElem_cons hk
  have htake : (between p a b).take (k + 1) = (between p a b).take k ++ [last] := by
    rw [List.take_add_one, List.getElem?_eq_getElem hk]
    rfl
  have hsorted := pairwise_between p a b
  rw [← List.take_append_drop k (between p a b), hdrop, List.pairwise_append] at hsorted
  obtain ⟨-, hright, hleft⟩ := hsorted
  -- The members up to `last` are those taken, so the two ways of cutting agree.
  have hcut : between p a (last + 1) ++ between p (last + 1) b = between p a b :=
    between_append (by omega) hb
  have hfirst : between p a (last + 1) = (between p a b).filter fun x => x ≤ last := by
    rw [← hcut, List.filter_append, List.filter_eq_self.mpr, List.filter_eq_nil_iff.mpr,
      List.append_nil]
    · intro x hx
      have h := mem_between.mp hx
      simp only [decide_eq_true_eq]
      omega
    · intro x hx
      have h := mem_between.mp hx
      simp only [decide_eq_true_eq]
      omega
  have htaken : (between p a b).filter (fun x => x ≤ last) = (between p a b).take (k + 1) := by
    conv_lhs => rw [← List.take_append_drop (k + 1) (between p a b)]
    rw [List.filter_append, List.filter_eq_self.mpr, List.filter_eq_nil_iff.mpr, List.append_nil]
    · intro x hx
      have h := List.rel_of_pairwise_cons hright hx
      simp only [decide_eq_true_eq]
      omega
    · intro x hx
      rw [htake, List.mem_append, List.mem_singleton] at hx
      simp only [decide_eq_true_eq]
      rcases hx with hx | rfl
      · exact Nat.le_of_lt (hleft x hx last List.mem_cons_self)
      · exact Nat.le_refl _
  have heq := hfirst.trans htaken
  refine ⟨last, by rw [htake]; simp, ha, hb, heq.symm, ?_⟩
  have hall : between p a (last + 1) ++ (between p a b).drop (k + 1) = between p a b := by
    rw [heq, List.take_append_drop]
  exact List.append_cancel_left (hall.trans hcut.symm)

end Pylyskom
