import Mathlib.Algebra.Group.Defs
import Mathlib.Data.List.Induction

/-!
# Folds that take zero for nothing

An accumulator that tests its value for truth cannot tell a zero from no value at all, so it
begins again behind every zero. For an operation with zero as its unit nothing is lost. For
one that selects one of its arguments, such as `min`, the fold is right exactly if its proper
result is not a zero that other values follow.
-/

namespace Pylyskom

section

variable {ν : Type}

/-- The fold of a nonempty list from its first value on. -/
def reduce (op : ν → ν → ν) : List ν → Option ν
  | [] => none
  | v :: values => some (values.foldl op v)

/-- Combine a value with what is stored, unless nothing or zero is stored. -/
def restartStep [Zero ν] [DecidableEq ν] (op : ν → ν → ν) : Option ν → ν → ν
  | none, v => v
  | some s, v => if s = 0 then v else op s v

/-- What is stored after a list of values. -/
def restartFold [Zero ν] [DecidableEq ν] (op : ν → ν → ν) (values : List ν) : Option ν :=
  values.foldl (fun s v => some (restartStep op s v)) none

theorem reduce_append_singleton (op : ν → ν → ν) (values : List ν) (v : ν) :
    reduce op (values ++ [v]) = some ((reduce op values).elim v fun m => op m v) := by
  cases values with
  | nil => rfl
  | cons w values => simp [reduce]

variable [Zero ν] [DecidableEq ν]

theorem restartFold_append_singleton (op : ν → ν → ν) (values : List ν) (v : ν) :
    restartFold op (values ++ [v]) = some (restartStep op (restartFold op values) v) := by
  rw [restartFold, List.foldl_append]
  rfl

/-- A zero that is dropped makes no difference to an operation of which it is a left unit. -/
theorem restartFold_eq_reduce {op : ν → ν → ν} (hunit : ∀ v, op 0 v = v) (values : List ν) :
    restartFold op values = reduce op values := by
  induction values using List.reverseRecOn with
  | nil => rfl
  | append_singleton values v ih =>
    rw [restartFold_append_singleton, reduce_append_singleton, ih]
    cases reduce op values with
    | none => rfl
    | some m =>
      simp only [restartStep, Option.elim_some]
      split
      · next hzero => rw [hzero, hunit]
      · rfl

/-- The stored value of a selection is its result, or else the result is a zero that is not the
last value, and a value from behind it is stored. -/
private theorem restartFold_cases {op : ν → ν → ν} [Std.Associative op] [Std.Commutative op]
    (hselect : ∀ v w, op v w = v ∨ op v w = w) (values : List ν) :
    (restartFold op values = reduce op values ∧
        (reduce op values = some 0 → values.getLast? = some 0)) ∨
      (reduce op values = some 0 ∧ values.getLast? ≠ some 0 ∧
        ∃ s, restartFold op values = some s ∧ s ≠ 0 ∧ op 0 s = 0) := by
  have hassoc : ∀ u v w, op (op u v) w = op u (op v w) := Std.Associative.assoc
  have hcomm : ∀ v w, op v w = op w v := Std.Commutative.comm
  induction values using List.reverseRecOn with
  | nil => exact Or.inl ⟨rfl, fun h => by cases h⟩
  | append_singleton values v ih =>
    rw [restartFold_append_singleton, reduce_append_singleton, List.getLast?_concat]
    rcases ih with ⟨hfold, -⟩ | ⟨hreduce, -, s, hfold, hs, hzero⟩
    · rw [hfold]
      cases hm : reduce op values with
      | none => exact Or.inl ⟨rfl, id⟩
      | some m =>
        simp only [restartStep, Option.elim_some, Option.some.injEq]
        by_cases hm : m = 0
        · subst hm
          rw [if_pos rfl]
          by_cases hv : op 0 v = v
          · exact Or.inl ⟨hv.symm, fun h => hv ▸ h⟩
          · have hzero : op 0 v = 0 := (hselect 0 v).resolve_right hv
            have hne : v ≠ 0 := fun h => hv (hzero.trans h.symm)
            exact Or.inr ⟨hzero, by simpa using hne, v, rfl, hne, hzero⟩
        · rw [if_neg hm]
          refine Or.inl ⟨rfl, fun h => ?_⟩
          rcases hselect m v with hsel | hsel
          · exact absurd (hsel.symm.trans h) hm
          · exact hsel.symm.trans h
    · -- The stored value absorbs what the lost zero would have.
      rw [hfold, hreduce]
      simp only [restartStep, Option.elim_some, Option.some.injEq, if_neg hs]
      by_cases hv : op 0 v = v
      · have hsv : op s v = v := by
          calc op s v = op s (op 0 v) := by rw [hv]
            _ = op (op s 0) v := (hassoc s 0 v).symm
            _ = op (op 0 s) v := by rw [hcomm s 0]
            _ = v := by rw [hzero, hv]
        exact Or.inl ⟨by rw [hsv, hv], fun h => hv ▸ h⟩
      · have hzero' : op 0 v = 0 := (hselect 0 v).resolve_right hv
        have hne : v ≠ 0 := fun h => hv (hzero'.trans h.symm)
        refine Or.inr ⟨hzero', by simpa using hne, op s v, rfl, ?_, ?_⟩
        · rcases hselect s v with hsel | hsel <;> rwa [hsel]
        · rw [← hassoc, hzero, hzero']

/-- A selection survives the restarts exactly if its result is not a zero followed by others. -/
theorem restartFold_eq_reduce_iff {op : ν → ν → ν} [Std.Associative op] [Std.Commutative op]
    (hselect : ∀ v w, op v w = v ∨ op v w = w) (values : List ν) :
    restartFold op values = reduce op values ↔
      (reduce op values = some 0 → values.getLast? = some 0) := by
  rcases restartFold_cases hselect values with ⟨hfold, hlast⟩ | ⟨hreduce, hlast, s, hfold, hs, -⟩
  · exact iff_of_true hfold hlast
  · refine iff_of_false (fun h => ?_) fun h => hlast (h hreduce)
    rw [hfold, hreduce, Option.some.injEq] at h
    exact hs h

end

end Pylyskom
