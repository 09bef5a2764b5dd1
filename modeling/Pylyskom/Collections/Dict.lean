import Mathlib.Data.List.Nodup

/-!
# Insertion-ordered dictionaries

A Python dictionary keeps its items in the order in which their keys were first
set, and holds each key once. Setting a present key replaces its value in place.
-/

namespace Pylyskom

/-- A dictionary: its items in insertion order, with distinct keys. -/
structure Dict (κ ν : Type) where
  items : List (κ × ν)
  nodup : (items.map Prod.fst).Nodup
  deriving DecidableEq, Repr

attribute [ext] Dict

namespace Dict

variable {κ ν μ : Type}

/-- The dictionary without items. -/
def empty : Dict κ ν := ⟨[], List.nodup_nil⟩

instance : EmptyCollection (Dict κ ν) := ⟨empty⟩

instance : Inhabited (Dict κ ν) := ⟨empty⟩

/-- The keys, in insertion order. -/
def keys (d : Dict κ ν) : List κ := d.items.map Prod.fst

instance : Membership κ (Dict κ ν) := ⟨fun d k => k ∈ d.keys⟩

/-- The values replaced by a function of them. -/
def mapValues (f : ν → μ) (d : Dict κ ν) : Dict κ μ :=
  ⟨d.items.map fun p => (p.1, f p.2), by simpa [Function.comp_def] using d.nodup⟩

theorem mem_keys {d : Dict κ ν} {k : κ} : k ∈ d.keys ↔ k ∈ d := Iff.rfl

@[simp] theorem not_mem_empty (k : κ) : k ∉ (∅ : Dict κ ν) := List.not_mem_nil

variable [DecidableEq κ]

instance (k : κ) (d : Dict κ ν) : Decidable (k ∈ d) := inferInstanceAs (Decidable (k ∈ d.keys))

/-- The value of a key, if it has one. -/
def get? (d : Dict κ ν) (k : κ) : Option ν := (d.items.find? fun p => p.1 = k).map Prod.snd

/-- Set a key in a list of items: in place if it is there, else at the end. -/
def setItems (k : κ) (v : ν) : List (κ × ν) → List (κ × ν)
  | [] => [(k, v)]
  | p :: l => if p.1 = k then (k, v) :: l else p :: setItems k v l

theorem keys_setItems (k : κ) (v : ν) (l : List (κ × ν)) :
    (setItems k v l).map Prod.fst =
      if k ∈ l.map Prod.fst then l.map Prod.fst else l.map Prod.fst ++ [k] := by
  induction l with
  | nil => rfl
  | cons p l ih =>
    by_cases hp : p.1 = k
    · simp [setItems, hp]
    · have hk : k ≠ p.1 := fun h => hp h.symm
      simp only [setItems, hp, if_false, List.map_cons, ih, List.mem_cons, hk, false_or]
      split <;> simp

/-- Set the value of a key. -/
def set (d : Dict κ ν) (k : κ) (v : ν) : Dict κ ν where
  items := setItems k v d.items
  nodup := by
    rw [keys_setItems]
    split
    · exact d.nodup
    · next h => exact List.Nodup.append d.nodup (List.nodup_singleton k) (by simpa using h)

/-- Remove a key, if it is there. -/
def erase (d : Dict κ ν) (k : κ) : Dict κ ν where
  items := d.items.filter fun p => p.1 ≠ k
  nodup := (d.nodup.sublist ((List.filter_sublist).map Prod.fst))

/-- Two dictionaries are equal in Python's sense if they hold the same items. -/
def Same (d e : Dict κ ν) : Prop := ∀ k, d.get? k = e.get? k

/-- A key has the value of its item. -/
theorem get?_eq_some_iff {d : Dict κ ν} {k : κ} {v : ν} :
    d.get? k = some v ↔ (k, v) ∈ d.items := by
  obtain ⟨l, hl⟩ := d
  simp only [get?]
  induction l with
  | nil => simp
  | cons p l ih =>
    simp only [List.map_cons, List.nodup_cons] at hl
    by_cases hp : p.1 = k
    · subst hp
      have hnot : ∀ v, (p.1, v) ∉ l := fun v hv => hl.1 (List.mem_map.mpr ⟨_, hv, rfl⟩)
      simp only [List.find?_cons, decide_true, Option.map_some, Option.some.injEq,
        List.mem_cons, hnot, or_false]
      constructor
      · rintro rfl; rfl
      · intro h; exact (congrArg Prod.snd h).symm
    · have hne : (k, v) ≠ p := fun h => hp (congrArg Prod.fst h).symm
      simpa [hp, hne] using ih hl.2

theorem mem_iff_isSome {d : Dict κ ν} {k : κ} : k ∈ d ↔ (d.get? k).isSome := by
  rw [Option.isSome_iff_exists, ← mem_keys, keys, List.mem_map]
  constructor
  · rintro ⟨⟨j, v⟩, hv, rfl⟩
    exact ⟨v, get?_eq_some_iff.mpr hv⟩
  · rintro ⟨v, hv⟩
    exact ⟨(k, v), get?_eq_some_iff.mp hv, rfl⟩

/-- A key is absent exactly if it has no value. -/
theorem get?_eq_none_iff {d : Dict κ ν} {k : κ} : d.get? k = none ↔ k ∉ d := by
  rw [mem_iff_isSome, Option.not_isSome_iff_eq_none]

theorem mem_of_get? {d : Dict κ ν} {k : κ} {v : ν} (h : d.get? k = some v) : k ∈ d :=
  mem_iff_isSome.mpr (by simp [h])

@[simp] theorem get?_empty (k : κ) : (∅ : Dict κ ν).get? k = none := rfl

private theorem mem_setItems {k : κ} {v : ν} {l : List (κ × ν)} (hl : (l.map Prod.fst).Nodup)
    {q : κ × ν} : q ∈ setItems k v l ↔ q = (k, v) ∨ (q ∈ l ∧ q.1 ≠ k) := by
  induction l with
  | nil => simp [setItems]
  | cons p l ih =>
    simp only [List.map_cons, List.nodup_cons] at hl
    by_cases hp : p.1 = k
    · have hnot : ∀ q ∈ l, q.1 ≠ k := fun q hq h => hl.1 (by
        rw [hp, ← h]; exact List.mem_map_of_mem hq)
      simp only [setItems, hp, if_true, List.mem_cons]
      constructor
      · rintro (h | h)
        · exact Or.inl h
        · exact Or.inr ⟨Or.inr h, hnot q h⟩
      · rintro (h | ⟨rfl | h, hq⟩)
        · exact Or.inl h
        · exact absurd hp hq
        · exact Or.inr h
    · simp only [setItems, hp, if_false, List.mem_cons, ih hl.2]
      constructor
      · rintro (rfl | rfl | ⟨h, hq⟩)
        · exact Or.inr ⟨Or.inl rfl, hp⟩
        · exact Or.inl rfl
        · exact Or.inr ⟨Or.inr h, hq⟩
      · rintro (rfl | ⟨rfl | h, hq⟩)
        · exact Or.inr (Or.inl rfl)
        · exact Or.inl rfl
        · exact Or.inr (Or.inr ⟨h, hq⟩)

/-- Setting a key changes the value of that key only. -/
@[simp] theorem get?_set (d : Dict κ ν) (k j : κ) (v : ν) :
    (d.set k v).get? j = if j = k then some v else d.get? j := by
  ext w
  rw [get?_eq_some_iff, set, mem_setItems d.nodup]
  by_cases h : j = k
  · subst h
    simp [eq_comm]
  · simp [h, get?_eq_some_iff]

/-- Removing a key takes the value of that key only. -/
@[simp] theorem get?_erase (d : Dict κ ν) (k j : κ) :
    (d.erase k).get? j = if j = k then none else d.get? j := by
  ext w
  rw [get?_eq_some_iff]
  by_cases h : j = k
  · simp [erase, h]
  · simp [erase, h, get?_eq_some_iff]

@[simp] theorem mem_set {d : Dict κ ν} {k j : κ} {v : ν} : j ∈ d.set k v ↔ j = k ∨ j ∈ d := by
  rw [mem_iff_isSome, mem_iff_isSome, get?_set]
  split <;> simp_all

@[simp] theorem mem_erase {d : Dict κ ν} {k j : κ} : j ∈ d.erase k ↔ j ≠ k ∧ j ∈ d := by
  rw [mem_iff_isSome, mem_iff_isSome, get?_erase]
  split <;> simp_all

@[simp] theorem get?_mapValues (f : ν → μ) (d : Dict κ ν) (k : κ) :
    (d.mapValues f).get? k = (d.get? k).map f := by
  simp only [get?, mapValues, List.find?_map, Option.map_map, Function.comp_def]

@[simp] theorem mem_mapValues {f : ν → μ} {d : Dict κ ν} {k : κ} : k ∈ d.mapValues f ↔ k ∈ d := by
  simp [mem_iff_isSome]

/-- Setting keys commutes with a change of all values. -/
theorem mapValues_erase (f : ν → μ) (d : Dict κ ν) (k : κ) :
    (d.erase k).mapValues f = (d.mapValues f).erase k := by
  simp [mapValues, erase, List.filter_map, Function.comp_def]

theorem setItems_of_not_mem {k : κ} {v : ν} {l : List (κ × ν)} (h : k ∉ l.map Prod.fst) :
    setItems k v l = l ++ [(k, v)] := by
  induction l with
  | nil => rfl
  | cons p l ih =>
    simp only [List.map_cons, List.mem_cons, not_or] at h
    rw [setItems, if_neg (fun hp => h.1 hp.symm), ih h.2, List.cons_append]

theorem erase_of_not_mem {d : Dict κ ν} {k : κ} (h : k ∉ d) : d.erase k = d := by
  refine Dict.ext (List.filter_eq_self.mpr fun p hp => ?_)
  rw [decide_eq_true_iff]
  rintro rfl
  exact h (List.mem_map_of_mem hp)

theorem erase_set_of_not_mem {d : Dict κ ν} {k : κ} (h : k ∉ d) (v : ν) :
    (d.set k v).erase k = d := by
  have hset : (d.set k v).items = d.items ++ [(k, v)] := setItems_of_not_mem h
  have herase : d.items.filter (fun p => p.1 ≠ k) = d.items :=
    congrArg items (erase_of_not_mem h)
  refine Dict.ext ?_
  change (d.set k v).items.filter (fun p => p.1 ≠ k) = d.items
  rw [hset, List.filter_append, herase]
  simp

/-- Setting distinct new keys appends their items. -/
theorem items_foldl_set (d : Dict κ ν) {l : List (κ × ν)}
    (h : (d.keys ++ l.map Prod.fst).Nodup) :
    (l.foldl (fun d p => d.set p.1 p.2) d).items = d.items ++ l := by
  induction l generalizing d with
  | nil => simp
  | cons p l ih =>
    have hnot : p.1 ∉ d.items.map Prod.fst := by
      rw [List.map_cons, List.nodup_append] at h
      exact fun hp => h.2.2 _ hp _ List.mem_cons_self rfl
    have hset : (d.set p.1 p.2).items = d.items ++ [(p.1, p.2)] := setItems_of_not_mem hnot
    have hkeys : (d.set p.1 p.2).keys ++ l.map Prod.fst = d.keys ++ (p :: l).map Prod.fst := by
      simp [keys, hset]
    rw [List.foldl_cons, ih _ (by rw [hkeys]; exact h), hset, List.append_assoc]
    rfl

/-- Dictionaries with the same items in any order are the same. -/
theorem same_iff_perm {d e : Dict κ ν} : d.Same e ↔ d.items.Perm e.items := by
  have hd : d.items.Nodup := List.Nodup.of_map Prod.fst d.nodup
  have he : e.items.Nodup := List.Nodup.of_map Prod.fst e.nodup
  rw [List.perm_ext_iff_of_nodup hd he]
  constructor
  · intro h p
    rw [← get?_eq_some_iff (d := d), ← get?_eq_some_iff (d := e), h]
  · intro h k
    ext v
    rw [get?_eq_some_iff, get?_eq_some_iff, h]

theorem mapValues_set (f : ν → μ) (d : Dict κ ν) (k : κ) (v : ν) :
    (d.set k v).mapValues f = (d.mapValues f).set k (f v) := by
  have hitems : ∀ l : List (κ × ν), (setItems k v l).map (fun p => (p.1, f p.2)) =
      setItems k (f v) (l.map fun p => (p.1, f p.2)) := by
    intro l
    induction l with
    | nil => rfl
    | cons p l ih =>
      simp only [setItems, List.map_cons]
      split
      · rfl
      · rw [List.map_cons, ih]
  exact Dict.ext (hitems d.items)

theorem Same.refl (d : Dict κ ν) : d.Same d := fun _ => rfl

theorem Same.set {d e : Dict κ ν} (h : d.Same e) (k : κ) (v : ν) :
    (d.set k v).Same (e.set k v) := by
  intro j
  rw [get?_set, get?_set, h j]

end Dict

end Pylyskom
