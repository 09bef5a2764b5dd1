import Mathlib.Data.List.Forall2
import Mathlib.Data.List.Nodup
import Mathlib.Data.List.TakeDrop

/-!
# Lists

An element of one of two lists that correspond, the one element with a given image, a piece
of a list, its longest front of elements with a property, and what stays when an element is
appended or removed.
-/

namespace Pylyskom

theorem exists_of_forall₂ {α β : Type} {R : α → β → Prop} {l : List α} {l' : List β} {b : β}
    (h : List.Forall₂ R l l') (hb : b ∈ l') : ∃ a ∈ l, R a b := by
  induction h with
  | nil => cases hb
  | cons hab _ ih =>
    rcases List.mem_cons.mp hb with rfl | hb
    · exact ⟨_, List.mem_cons_self, hab⟩
    · obtain ⟨a, ha, hr⟩ := ih hb
      exact ⟨a, List.mem_cons_of_mem _ ha, hr⟩

/-- The element that stands at the same place. -/
theorem getElem?_of_forall₂ {α β : Type} {R : α → β → Prop} {l : List α} {l' : List β} {k : ℕ}
    {b : β} (h : List.Forall₂ R l l') (hb : l'[k]? = some b) : ∃ a, l[k]? = some a ∧ R a b := by
  induction h generalizing k with
  | nil => cases hb
  | cons hab _ ih =>
    cases k with
    | zero =>
      obtain rfl := Option.some.inj hb
      exact ⟨_, rfl, hab⟩
    | succ k => exact ih hb

/-- Of elements with distinct images only one has a given image. -/
theorem filter_eq_singleton {α β : Type} [DecidableEq β] {f : α → Option β} {l : List α} {a : α}
    {b : β} (hdistinct : (l.filterMap f).Nodup) (ha : a ∈ l) (hb : f a = some b) :
    l.filter (fun a => f a = some b) = [a] := by
  induction l with
  | nil => cases ha
  | cons x l ih =>
    rcases List.mem_cons.mp ha with rfl | ha
    · rw [List.filterMap_cons_some hb, List.nodup_cons] at hdistinct
      have hnone : l.filter (fun a => f a = some b) = [] := by
        rw [List.filter_eq_nil_iff]
        intro y hy hfy
        exact hdistinct.1 (List.mem_filterMap.mpr ⟨y, hy, of_decide_eq_true hfy⟩)
      simp [hb, hnone]
    · have htail := hdistinct.sublist ((List.sublist_cons_self x l).filterMap f)
      have hx : f x ≠ some b := by
        intro hx
        rw [List.filterMap_cons_some hx, List.nodup_cons] at hdistinct
        exact hdistinct.1 (List.mem_filterMap.mpr ⟨a, ha, hb⟩)
      simpa [hx] using ih htail ha

/-- The elements at successive indices are a piece of the list. -/
theorem eq_take_drop {α : Type} {l as : List α} {first n : ℕ}
    (h : List.Forall₂ (fun i a => l[i]? = some a) (List.range' first n) as) :
    as = (l.drop first).take n := by
  induction n generalizing first as with
  | zero =>
    cases h
    rfl
  | succ n ih =>
    rw [List.range'_succ] at h
    obtain ⟨a, as, ha, hrest, rfl⟩ := List.forall₂_cons_left_iff.mp h
    obtain ⟨hlt, rfl⟩ := List.getElem?_eq_some_iff.mp ha
    rw [List.drop_eq_getElem_cons hlt, List.take_succ_cons, ← ih hrest]

/-- The longest front of elements with a property, and what follows it. -/
theorem exists_front {α : Type} (p : α → Bool) (l : List α) :
    ∃ front rest, l = front ++ rest ∧ (∀ a ∈ front, p a = true) ∧
      (rest = [] ∨ ∃ a tail, rest = a :: tail ∧ p a = false) := by
  induction l with
  | nil => exact ⟨[], [], rfl, by simp, Or.inl rfl⟩
  | cons a l ih =>
    cases ha : p a with
    | false => exact ⟨[], a :: l, rfl, by simp, Or.inr ⟨a, l, rfl, ha⟩⟩
    | true =>
      obtain ⟨front, rest, rfl, hfront, hrest⟩ := ih
      exact ⟨a :: front, rest, rfl, List.forall_mem_cons.mpr ⟨ha, hfront⟩, hrest⟩

theorem span_append_cons {α : Type} {p : α → Bool} {front : List α}
    (h : ∀ a ∈ front, p a = true) {a : α} (ha : p a = false) (rest : List α) :
    (front ++ a :: rest).span p = (front, a :: rest) := by
  have hneg : ¬ p a = true := by
    rw [ha]
    exact Bool.false_ne_true
  rw [List.span_eq_takeWhile_dropWhile, List.takeWhile_append_of_pos h,
    List.dropWhile_append_of_pos h, List.takeWhile_cons_of_neg hneg,
    List.dropWhile_cons_of_neg hneg, List.append_nil]

/-- An element of a list to which one more was appended is this one, or was there before. -/
theorem append_singleton_eq_append_cons {α : Type} {l before after : List α} {x a : α}
    (h : l ++ [x] = before ++ a :: after) :
    (after = [] ∧ a = x ∧ before = l) ∨ ∃ rest, after = rest ++ [x] ∧ l = before ++ a :: rest := by
  rcases List.eq_nil_or_concat after with rfl | ⟨rest, last, rfl⟩
  · obtain ⟨rfl, hlast⟩ := List.append_inj' h rfl
    exact Or.inl ⟨rfl, (List.cons.inj hlast).1.symm, rfl⟩
  · have hsplit : l ++ [x] = (before ++ a :: rest) ++ [last] := by
      rw [h, List.concat_eq_append, List.append_assoc, List.cons_append]
    obtain ⟨rfl, hlast⟩ := List.append_inj' hsplit rfl
    obtain rfl := (List.cons.inj hlast).1
    exact Or.inr ⟨rest, List.concat_eq_append, rfl⟩

/-- The other elements stay when one is removed. -/
theorem mem_of_mem_append_cons {α : Type} {before after : List α} {a b : α}
    (h : b ∈ before ++ a :: after) (hne : b ≠ a) : b ∈ before ++ after := by
  rcases List.mem_append.mp h with h | h
  · exact List.mem_append_left _ h
  · exact List.mem_append_right _ ((List.mem_cons.mp h).resolve_left hne)

theorem mem_append_cons_of_mem_append {α : Type} {before after : List α} {a b : α}
    (h : b ∈ before ++ after) : b ∈ before ++ a :: after := by
  rcases List.mem_append.mp h with h | h
  · exact List.mem_append_left _ h
  · exact List.mem_append_right _ (List.mem_cons_of_mem _ h)

/-- An element is replaced by one with the same value. -/
theorem map_set_of_eq {α β : Type} {f : α → β} {l : List α} {i : ℕ} {x y : α}
    (found : l[i]? = some x) (same : f y = f x) : (l.set i y).map f = l.map f := by
  obtain ⟨hi, rfl⟩ := List.getElem?_eq_some_iff.mp found
  have hself := @List.set_getElem_self β (l.map f) i (by simpa using hi)
  rw [List.getElem_map] at hself
  rw [List.map_set, same, hself]

/-- The entries of a list after one was appended. -/
theorem getElem?_append_singleton_iff {α : Type} {l : List α} {j : ℕ} {y z : α} :
    (l ++ [y])[j]? = some z ↔ (j = l.length ∧ z = y) ∨ l[j]? = some z := by
  rcases Nat.lt_trichotomy j l.length with h | h | h
  · have hne : j ≠ l.length := by omega
    simp [List.getElem?_append_left h, hne]
  · subst h
    simp [eq_comm]
  · have hne : j ≠ l.length := by omega
    have hlen : (l ++ [y]).length ≤ j := by
      rw [List.length_append, List.length_singleton]
      omega
    rw [List.getElem?_eq_none hlen, List.getElem?_eq_none (Nat.le_of_lt h)]
    simp [hne]

end Pylyskom
