import Mathlib.Data.List.Forall2
import Mathlib.Data.Set.Basic

/-!
# Sequences of sets

The words whose letters are in the sets of a sequence, one in each, determine the sequence if
no set is empty. A list that is put together from nonempty pieces has the length of the list
of its pieces only if each of them is one value.
-/

namespace Pylyskom

variable {α β γ : Type}

/-- There is a word that fits a sequence of nonempty sets. -/
private theorem exists_forall₂_mem {A : List (Set α)} (hA : ∀ S ∈ A, S.Nonempty) :
    ∃ w, List.Forall₂ (fun S x => x ∈ S) A w := by
  induction A with
  | nil => exact ⟨[], List.Forall₂.nil⟩
  | cons S A ih =>
    obtain ⟨x, hx⟩ := hA S List.mem_cons_self
    obtain ⟨w, hw⟩ := ih fun S hS => hA S (List.mem_cons_of_mem _ hS)
    exact ⟨x :: w, List.Forall₂.cons hx hw⟩

/-- Sequences of nonempty sets that fit the same words are the same. -/
theorem forall₂_mem_iff_eq {A B : List (Set α)} (hA : ∀ S ∈ A, S.Nonempty)
    (hB : ∀ S ∈ B, S.Nonempty) :
    (∀ w, List.Forall₂ (fun S x => x ∈ S) A w ↔ List.Forall₂ (fun S x => x ∈ S) B w) ↔
      A = B := by
  refine ⟨fun h => ?_, fun h w => by rw [h]⟩
  induction A generalizing B with
  | nil =>
    cases (h []).mp List.Forall₂.nil
    rfl
  | cons S A ih =>
    cases B with
    | nil => cases (h []).mpr List.Forall₂.nil
    | cons T B =>
      have hA' := fun S hS => hA S (List.mem_cons_of_mem _ hS)
      have hB' := fun T hT => hB T (List.mem_cons_of_mem _ hT)
      obtain ⟨v, hv⟩ := exists_forall₂_mem hA'
      obtain ⟨w, hw⟩ := exists_forall₂_mem hB'
      have hST : S = T := by
        ext x
        constructor
        · intro hx
          exact (List.forall₂_cons.mp ((h (x :: v)).mp (List.Forall₂.cons hx hv))).1
        · intro hx
          exact (List.forall₂_cons.mp ((h (x :: w)).mpr (List.Forall₂.cons hx hw))).1
      subst hST
      obtain ⟨x, hx⟩ := hA S List.mem_cons_self
      have hrest := ih hA' hB' fun w => by
        have hw := h (x :: w)
        rwa [List.forall₂_cons, List.forall₂_cons, and_iff_right hx, and_iff_right hx] at hw
      rw [hrest]

variable {f : β → γ} {g : β → List γ} {l : List β}

theorem length_le_length_flatMap (hg : ∀ b ∈ l, g b ≠ []) :
    l.length ≤ (l.flatMap g).length := by
  induction l with
  | nil => exact Nat.le_refl 0
  | cons b l ih =>
    have hb := List.length_pos_iff.mpr (hg b List.mem_cons_self)
    have hl := ih fun b hb => hg b (List.mem_cons_of_mem _ hb)
    rw [List.flatMap_cons, List.length_append, List.length_cons]
    omega

/-- Nonempty pieces are as many values as there are pieces only if each is one value. -/
theorem flatMap_eq_map_iff (hg : ∀ b ∈ l, g b ≠ []) :
    l.flatMap g = l.map f ↔ ∀ b ∈ l, g b = [f b] := by
  induction l with
  | nil => simp
  | cons b l ih =>
    have hg' : ∀ b ∈ l, g b ≠ [] := fun b hb => hg b (List.mem_cons_of_mem _ hb)
    rw [List.flatMap_cons, List.map_cons, List.forall_mem_cons, ← ih hg']
    constructor
    · intro heq
      have hlen := congrArg List.length heq
      have hl := length_le_length_flatMap hg'
      have hb := List.length_pos_iff.mpr (hg b List.mem_cons_self)
      rw [List.length_append, List.length_cons, List.length_map] at hlen
      obtain ⟨c, hc⟩ := List.length_eq_one_iff.mp (show (g b).length = 1 by omega)
      rw [hc, List.singleton_append, List.cons.injEq] at heq
      exact ⟨by rw [hc, heq.1], heq.2⟩
    · rintro ⟨hb, hl⟩
      rw [hb, hl, List.singleton_append]

end Pylyskom
