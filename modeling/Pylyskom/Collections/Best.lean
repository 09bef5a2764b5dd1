import Mathlib.Data.List.Induction
import Mathlib.Data.List.Pairwise
import Mathlib.Data.List.Sort

/-!
# The best element of a list

A loop that replaces the best element so far only by a better one ends with the first of the
best elements. Sorting a list by rank brings an element of the highest rank to its end.
-/

namespace Pylyskom

variable {α β σ : Type} [LinearOrder σ]

/-- Keep the score of the best element, and a value made from it. -/
def keepBest (score : α → σ) (value : α → β) (best : σ × β) (a : α) : σ × β :=
  if best.1 < score a then (score a, value a) else best

/-- An element of the list before which all scores are lower, and after which none is higher. -/
def FirstBest (score : α → σ) (l : List α) (a : α) : Prop :=
  ∃ pre post, l = pre ++ a :: post ∧ (∀ b ∈ pre, score b < score a) ∧
    ∀ b ∈ post, score b ≤ score a

theorem FirstBest.mem {score : α → σ} {l : List α} {a : α} (h : FirstBest score l a) : a ∈ l := by
  obtain ⟨pre, post, rfl, -, -⟩ := h
  simp

theorem FirstBest.le {score : α → σ} {l : List α} {a b : α} (h : FirstBest score l a)
    (hb : b ∈ l) : score b ≤ score a := by
  obtain ⟨pre, post, rfl, hpre, hpost⟩ := h
  rcases List.mem_append.mp hb with hb | hb
  · exact (hpre b hb).le
  · rcases List.mem_cons.mp hb with rfl | hb
    · exact le_rfl
    · exact hpost b hb

/-- There is only one first best element. -/
theorem FirstBest.unique {score : α → σ} {l : List α} {a b : α} (ha : FirstBest score l a)
    (hb : FirstBest score l b) : a = b := by
  have hsame : score a = score b := le_antisymm (hb.le ha.mem) (ha.le hb.mem)
  obtain ⟨pre, post, rfl, hpre, -⟩ := ha
  obtain ⟨pre', post', heq, hpre', -⟩ := hb
  rcases List.append_eq_append_iff.mp heq with ⟨mid, rfl, hmid⟩ | ⟨mid, rfl, hmid⟩
  · cases mid with
    | nil => exact (List.cons.inj (hmid.trans (List.nil_append _))).1
    | cons c mid =>
      obtain ⟨rfl, -⟩ := List.cons.inj hmid
      exact absurd hsame (hpre' a (by simp)).ne
  · cases mid with
    | nil => exact (List.cons.inj (hmid.trans (List.nil_append _))).1.symm
    | cons c mid =>
      obtain ⟨rfl, -⟩ := List.cons.inj hmid
      exact absurd hsame.symm (hpre b (by simp)).ne

/-- The loop ends with the first best element, if it is better than what the loop began with. -/
theorem foldl_keepBest (score : α → σ) (value : α → β) (l : List α) (init : σ × β) :
    (l.foldl (keepBest score value) init = init ∧ ∀ a ∈ l, score a ≤ init.1) ∨
      ∃ a, FirstBest score l a ∧ init.1 < score a ∧
        l.foldl (keepBest score value) init = (score a, value a) := by
  induction l using List.reverseRecOn with
  | nil => exact Or.inl ⟨rfl, by simp⟩
  | append_singleton l b ih =>
    rw [List.foldl_append, List.foldl_cons, List.foldl_nil]
    rcases ih with ⟨hfold, hle⟩ | ⟨a, ⟨pre, post, rfl, hpre, hpost⟩, hinit, hfold⟩
    · rw [hfold, keepBest]
      by_cases hb : init.1 < score b
      · rw [if_pos hb]
        exact Or.inr ⟨b, ⟨l, [], rfl, fun c hc => (hle c hc).trans_lt hb, by simp⟩, hb, rfl⟩
      · rw [if_neg hb]
        refine Or.inl ⟨rfl, fun c hc => ?_⟩
        rcases List.mem_append.mp hc with hc | hc
        · exact hle c hc
        · rw [List.mem_singleton.mp hc]
          exact not_lt.mp hb
    · rw [hfold, keepBest]
      by_cases hb : score a < score b
      · rw [if_pos hb]
        refine Or.inr ⟨b, ⟨_, [], rfl, fun c hc => ?_, by simp⟩, hinit.trans hb, rfl⟩
        have hbest : FirstBest score (pre ++ a :: post) a := ⟨pre, post, rfl, hpre, hpost⟩
        exact (hbest.le hc).trans_lt hb
      · rw [if_neg hb]
        refine Or.inr ⟨a, ⟨pre, post ++ [b], by simp, hpre, fun c hc => ?_⟩, hinit, rfl⟩
        rcases List.mem_append.mp hc with hc | hc
        · exact hpost c hc
        · rw [List.mem_singleton.mp hc]
          exact not_lt.mp hb

/-- A relation that compares ranks. -/
abbrev rankLe (rank : α → σ) (a b : α) : Prop := rank a ≤ rank b

/-- The last element of a list that was sorted by rank has the highest rank. It suffices that
the relation compares the ranks of the elements of the list. -/
theorem getLast?_insertionSort {r : α → α → Prop} [DecidableRel r] {rank : α → σ} {l : List α}
    {a : α} (hr : ∀ b ∈ l, ∀ c ∈ l, r b c ↔ rank b ≤ rank c)
    (h : (l.insertionSort r).getLast? = some a) : a ∈ l ∧ ∀ b ∈ l, rank b ≤ rank a := by
  have hsame : l.insertionSort r = l.insertionSort (rankLe rank) := by
    have hmap := List.map_insertionSort (s := rankLe rank) r id l hr
    rwa [List.map_id, List.map_id] at hmap
  rw [hsame] at h
  have hnonempty : l.insertionSort (rankLe rank) ≠ [] := by
    intro hnil
    rw [hnil] at h
    cases h
  rw [List.getLast?_eq_getLast_of_ne_nil hnonempty, Option.some.injEq] at h
  subst h
  refine ⟨(List.mem_insertionSort _).mp (List.getLast_mem hnonempty), fun b hb => ?_⟩
  have : Std.Total (rankLe rank) := ⟨fun a b => le_total (rank a) (rank b)⟩
  have : IsTrans α (rankLe rank) := ⟨fun _ _ _ => le_trans⟩
  have hsorted := List.pairwise_insertionSort (rankLe rank) l
  exact hsorted.rel_getLast ((List.mem_insertionSort _).mpr hb)

end Pylyskom
