import Mathlib.Algebra.BigOperators.Group.List.Basic
import Mathlib.Order.MinMax
import Pylyskom.Collections.Dict
import Pylyskom.Collections.Restart
import Pylyskom.Errors

/-!
# Aggregated statistics

The counters of the library. A call of `set` combines its value with the stored one by the
function it names, and `reset` hands the dictionary over and begins a new one. Whether a value
is stored is decided by its truth value, so a stored zero is overwritten rather than combined.
This file proves for which values the dictionaries are nevertheless right.
-/

namespace Pylyskom.Metrics

/-- The aggregation functions, and any other name of one. -/
inductive Agg
  | last | sum | min | max | avg
  | other (func : List Char)
  deriving DecidableEq, Repr

structure Stats (ν : Type) where
  stats : Dict (List Char) ν
  namePrefix : Option (List Char)

/-- What is done with a `Stats` object. -/
inductive Op (ν : Type)
  | set (name : List Char) (value : ν) (agg : Option Agg)
  | reset

section

variable {ν : Type}

def Stats.init (namePrefix : Option (List Char)) : Stats ν := ⟨∅, namePrefix⟩

/-- The name with the prefix, where there is one that is not empty. -/
def key : Option (List Char) → List Char → List Char
  | none, name => name
  | some [], name => name
  | some p, name => p ++ name

def Stats.dump (stats : Stats ν) : Dict (List Char) ν := stats.stats

/-- The old dictionary, and the object with a new one. -/
def Stats.reset (stats : Stats ν) : Dict (List Char) ν × Stats ν :=
  (stats.stats, { stats with stats := ∅ })

variable [Zero ν] [DecidableEq ν] [Add ν] [Min ν] [Max ν]

/-- `_agg`. The parameter is `(val1 + val2) / 2`, which Python computes in floating point. -/
def Stats.agg (avg : ν → ν → ν) : Agg → ν → ν → Except Exn ν
  | .last, _, val2 => .ok val2
  | .sum, val1, val2 => .ok (val1 + val2)
  | .min, val1, val2 => .ok (Min.min val1 val2)
  | .max, val1, val2 => .ok (Max.max val1 val2)
  | .avg, val1, val2 => .ok (avg val1 val2)
  | .other _, _, _ => .error (.builtinError .runtimeError)

def Stats.set (avg : ν → ν → ν) (stats : Stats ν) (name : List Char) (value : ν) :
    Option Agg → Except Exn (Stats ν)
  | none => .error (.builtinError .assertionError)
  | some agg =>
    let name := key stats.namePrefix name
    match stats.stats.get? name with
    | some prevValue =>
      if prevValue = 0 then .ok { stats with stats := stats.stats.set name value }
      else do
        let value ← Stats.agg avg agg prevValue value
        return { stats with stats := stats.stats.set name value }
    | none => .ok { stats with stats := stats.stats.set name value }

/-- The dictionaries that the calls of `reset` return, and the final dump. -/
def Stats.run (avg : ν → ν → ν) : Stats ν → List (Op ν) → Except Exn (List (Dict (List Char) ν))
  | stats, [] => .ok [stats.dump]
  | stats, .set name value agg :: ops => do
    let stats ← stats.set avg name value agg
    stats.run avg ops
  | stats, .reset :: ops => do
    let dicts ← stats.reset.2.run avg ops
    return stats.reset.1 :: dicts

end

/-! ## What the dictionaries are for -/

/-- The functions that aggregate all the values of a name. -/
inductive Fold
  | last | sum | min | max
  deriving DecidableEq, Repr

def Fold.func : Fold → Agg
  | .last => .last
  | .sum => .sum
  | .min => .min
  | .max => .max

section

variable {ν : Type}

/-- The stretches between resets, where `sets` was already set in the first one. -/
def segmentsFrom (sets : List (List Char × ν)) : List (Op ν) → List (List (List Char × ν))
  | [] => [sets]
  | .set name value _ :: ops => segmentsFrom (sets ++ [(name, value)]) ops
  | .reset :: ops => sets :: segmentsFrom [] ops

/-- The names and values that were set in each stretch between resets. -/
def segments (ops : List (Op ν)) : List (List (List Char × ν)) := segmentsFrom [] ops

/-- The names and values of all calls of `set`. -/
def allSets : List (Op ν) → List (List Char × ν)
  | [] => []
  | .set name value _ :: ops => (name, value) :: allSets ops
  | .reset :: ops => allSets ops

/-- Each call of `set` is in one stretch. -/
theorem flatten_segmentsFrom (sets : List (List Char × ν)) (ops : List (Op ν)) :
    (segmentsFrom sets ops).flatten = sets ++ allSets ops := by
  induction ops generalizing sets with
  | nil => simp [segmentsFrom, allSets]
  | cons op ops ih =>
    cases op with
    | set name value agg => rw [segmentsFrom, ih, List.append_assoc, allSets]; rfl
    | reset => rw [segmentsFrom, List.flatten_cons, ih, allSets]; rfl

/-- The values of one name. -/
def valuesOf (name : List Char) (sets : List (List Char × ν)) : List ν :=
  (sets.filter fun set => set.1 = name).map Prod.snd

/-- Each name is always set with the same function. -/
def UsesOne (funcs : List Char → Fold) (ops : List (Op ν)) : Prop :=
  ∀ name value agg, Op.set name value agg ∈ ops → agg = some (funcs name).func

end

section

variable {ν : Type} [AddMonoid ν] [LinearOrder ν]

/-- The last value, the sum, the minimum or the maximum of all values. -/
def Fold.value : Fold → List ν → Option ν
  | .last, values => values.getLast?
  | .sum, values => if values.isEmpty then none else some values.sum
  | .min, values => values.min?
  | .max, values => values.max?

/-- A dictionary holds each name that was set, with all of its values aggregated. -/
structure Aggregated (funcs : List Char → Fold) (namePrefix : Option (List Char))
    (sets : List (List Char × ν)) (dict : Dict (List Char) ν) : Prop where
  get? : ∀ name, dict.get? (key namePrefix name) = (funcs name).value (valuesOf name sets)
  mem : ∀ k ∈ dict, ∃ name, k = key namePrefix name

/-- The dictionaries returned by the resets and the final dump aggregate one stretch each, and
the stretches hold every call of `set` once. -/
def Accounts (avg : ν → ν → ν) (funcs : List Char → Fold) (namePrefix : Option (List Char))
    (ops : List (Op ν)) : Prop :=
  ∃ dicts, (Stats.init namePrefix).run avg ops = .ok dicts ∧
    List.Forall₂ (Aggregated funcs namePrefix) (segments ops) dicts ∧
    (segments ops).flatten = allSets ops

/-- A minimum or maximum of zero is the last value. -/
def Fold.Kept : Fold → List ν → Prop
  | .min, values => values.min? = some 0 → values.getLast? = some 0
  | .max, values => values.max? = some 0 → values.getLast? = some 0
  | _, _ => True

instance (f : Fold) (values : List ν) : Decidable (f.Kept values) :=
  match f with
  | .last => isTrue trivial
  | .sum => isTrue trivial
  | .min => inferInstanceAs (Decidable (values.min? = some 0 → values.getLast? = some 0))
  | .max => inferInstanceAs (Decidable (values.max? = some 0 → values.getLast? = some 0))

/-! ## One value after another -/

/-- The function as an operation on two values. -/
def Fold.op : Fold → ν → ν → ν
  | .last, _, val2 => val2
  | .sum, val1, val2 => val1 + val2
  | .min, val1, val2 => Min.min val1 val2
  | .max, val1, val2 => Max.max val1 val2

theorem Stats.agg_func (avg : ν → ν → ν) (f : Fold) (val1 val2 : ν) :
    Stats.agg avg f.func val1 val2 = .ok (f.op val1 val2) := by
  cases f <;> rfl

theorem Fold.reduce_op (f : Fold) (values : List ν) : reduce f.op values = f.value values := by
  cases f with
  | last =>
    induction values using List.reverseRecOn with
    | nil => rfl
    | append_singleton values v ih =>
      rw [reduce_append_singleton, value, List.getLast?_concat]
      cases reduce (Fold.op .last) values <;> rfl
  | sum =>
    cases values with
    | nil => rfl
    | cons v values =>
      change some (values.foldl (· + ·) v) = some (v :: values).sum
      have hassoc : values.foldl (· + ·) (v + 0) = v + values.foldl (· + ·) 0 := List.foldl_assoc
      rw [List.sum_cons, List.sum_eq_foldl, ← hassoc, add_zero]
  | min => cases values <;> rfl
  | max => cases values <;> rfl

/-- Exactly a minimum or maximum of zero with other values behind it is lost. -/
theorem Fold.restartFold_eq_value_iff (f : Fold) (values : List ν) :
    restartFold f.op values = f.value values ↔ f.Kept values := by
  rw [← f.reduce_op]
  cases f with
  | last => exact iff_of_true (restartFold_eq_reduce (fun _ => rfl) values) trivial
  | sum => exact iff_of_true (restartFold_eq_reduce zero_add values) trivial
  | min =>
    have hmin : reduce Min.min values = values.min? := Fold.reduce_op .min values
    exact hmin ▸ restartFold_eq_reduce_iff min_choice values
  | max =>
    have hmax : reduce Max.max values = values.max? := Fold.reduce_op .max values
    exact hmax ▸ restartFold_eq_reduce_iff max_choice values

/-- `set` with one of the functions stores the step of its fold. -/
theorem Stats.set_eq (avg : ν → ν → ν) (stats : Stats ν) (name : List Char) (value : ν)
    (f : Fold) :
    stats.set avg name value (some f.func) = .ok { stats with
      stats := stats.stats.set (key stats.namePrefix name)
        (restartStep f.op (stats.stats.get? (key stats.namePrefix name)) value) } := by
  rw [Stats.set]
  cases stats.stats.get? (key stats.namePrefix name) with
  | none => rfl
  | some prevValue =>
    dsimp only
    split
    · next hzero => rw [restartStep, if_pos hzero]
    · next hne =>
      rw [Stats.agg_func, restartStep, if_neg hne]
      rfl

theorem key_inj {namePrefix : Option (List Char)} {name name' : List Char} :
    key namePrefix name = key namePrefix name' ↔ name = name' := by
  rcases namePrefix with _ | _ | _ <;> simp [key]

/-- What a dictionary holds of the values that were set: the fold that restarts at zero. -/
structure Stored (funcs : List Char → Fold) (namePrefix : Option (List Char))
    (sets : List (List Char × ν)) (dict : Dict (List Char) ν) : Prop where
  get? : ∀ name,
    dict.get? (key namePrefix name) = restartFold (funcs name).op (valuesOf name sets)
  mem : ∀ k ∈ dict, ∃ name, k = key namePrefix name

variable {funcs : List Char → Fold} {namePrefix : Option (List Char)}
  {sets : List (List Char × ν)}

theorem Stored.empty : Stored (ν := ν) funcs namePrefix [] ∅ :=
  ⟨fun _ => rfl, fun k hk => absurd hk (Dict.not_mem_empty k)⟩

/-- One call of `set` changes the fold of its name by one step, and no other. -/
theorem Stored.set {dict : Dict (List Char) ν} (h : Stored funcs namePrefix sets dict)
    (name : List Char) (value : ν) :
    Stored funcs namePrefix (sets ++ [(name, value)])
      (dict.set (key namePrefix name)
        (restartStep (funcs name).op (dict.get? (key namePrefix name)) value)) where
  get? name' := by
    rw [Dict.get?_set, if_congr key_inj rfl rfl, valuesOf, List.filter_append, List.map_append]
    split
    · next heq =>
      subst heq
      rw [h.get?, List.filter_cons_of_pos (by simp), List.filter_nil, List.map_singleton,
        restartFold_append_singleton]
      rfl
    · next hne =>
      have hother : name ≠ name' := fun heq => hne heq.symm
      rw [h.get?, List.filter_cons_of_neg (by simpa using hother), List.filter_nil, List.map_nil,
        List.append_nil]
      rfl
  mem k hk := by
    rcases Dict.mem_set.mp hk with rfl | hk
    · exact ⟨name, rfl⟩
    · exact h.mem k hk

/-- A run ends in one dictionary for each stretch, which stores what was set in it. -/
theorem Stats.run_stored (avg : ν → ν → ν) {ops : List (Op ν)} (huses : UsesOne funcs ops)
    (stats : Stats ν) (h : Stored funcs stats.namePrefix sets stats.stats) :
    ∃ dicts, stats.run avg ops = .ok dicts ∧
      List.Forall₂ (Stored funcs stats.namePrefix) (segmentsFrom sets ops) dicts := by
  induction ops generalizing stats sets with
  | nil => exact ⟨[stats.dump], rfl, List.Forall₂.cons h List.Forall₂.nil⟩
  | cons op ops ih =>
    have hrest : UsesOne funcs ops := fun name value agg hop =>
      huses name value agg (List.mem_cons_of_mem op hop)
    cases op with
    | set name value agg =>
      obtain rfl := huses name value agg List.mem_cons_self
      rw [Stats.run, Stats.set_eq]
      exact ih hrest _ (h.set name value)
    | reset =>
      obtain ⟨dicts, hrun, hdicts⟩ := ih hrest stats.reset.2 Stored.empty
      rw [Stats.run, hrun]
      exact ⟨stats.reset.1 :: dicts, rfl, List.Forall₂.cons h hdicts⟩

/-! ## When nothing is lost -/

theorem Stored.aggregated_iff {dict : Dict (List Char) ν}
    (h : Stored funcs namePrefix sets dict) :
    Aggregated funcs namePrefix sets dict ↔ ∀ name, (funcs name).Kept (valuesOf name sets) := by
  constructor
  · intro hagg name
    rw [← Fold.restartFold_eq_value_iff, ← h.get?, hagg.get?]
  · intro hkept
    refine ⟨fun name => ?_, h.mem⟩
    rw [h.get?]
    exact ((funcs name).restartFold_eq_value_iff _).mpr (hkept name)

theorem aggregated_iff_of_stored {stretches : List (List (List Char × ν))}
    {dicts : List (Dict (List Char) ν)}
    (h : List.Forall₂ (Stored funcs namePrefix) stretches dicts) :
    List.Forall₂ (Aggregated funcs namePrefix) stretches dicts ↔
      ∀ sets ∈ stretches, ∀ name, (funcs name).Kept (valuesOf name sets) := by
  induction h with
  | nil => simp
  | cons hdict _ ih => rw [List.forall₂_cons, hdict.aggregated_iff, ih, List.forall_mem_cons]

/-- **The statistics account for every value exactly if no minimum or maximum of zero is
followed by other values of its name before the next reset.** -/
theorem accounts_iff (avg : ν → ν → ν) (namePrefix : Option (List Char)) {ops : List (Op ν)}
    (huses : UsesOne funcs ops) :
    Accounts avg funcs namePrefix ops ↔
      ∀ sets ∈ segments ops, ∀ name, (funcs name).Kept (valuesOf name sets) := by
  obtain ⟨dicts, hrun, hstored⟩ := Stats.run_stored avg huses (Stats.init namePrefix) Stored.empty
  have hiff := aggregated_iff_of_stored hstored
  refine Iff.trans ?_ hiff
  constructor
  · rintro ⟨dicts', hrun', hagg, -⟩
    rw [hrun, Except.ok.injEq] at hrun'
    rwa [hrun']
  · exact fun hagg => ⟨dicts, hrun, hagg, flatten_segmentsFrom [] ops⟩

/-- A maximum of zero is the last value before the reset, and a sum passes through zero. -/
theorem accounts_iff_two :
    Accounts (ν := ℤ) (fun v w => (v + w) / 2)
      (fun name => if name = ['m'] then .max else .sum) none
      [.set ['m'] (-2) (some .max), .set ['n'] 3 (some .sum), .set ['m'] 0 (some .max), .reset,
        .set ['n'] 1 (some .sum), .set ['n'] (-1) (some .sum), .set ['n'] 5 (some .sum)] := by
  refine (accounts_iff (fun v w => (v + w) / 2) none ?_).mpr ?_
  · intro name value agg hop
    simp only [List.mem_cons, Op.set.injEq, List.not_mem_nil, reduceCtorEq, or_false,
      false_or] at hop
    rcases hop with ⟨rfl, -, rfl⟩ | ⟨rfl, -, rfl⟩ | ⟨rfl, -, rfl⟩ | ⟨rfl, -, rfl⟩ |
      ⟨rfl, -, rfl⟩ | ⟨rfl, -, rfl⟩ <;> rfl
  · intro sets hsets name
    by_cases hname : name = ['m']
    · subst hname
      revert sets
      decide
    · simp only [if_neg hname]
      trivial

/-- A minimum of zero is overwritten by the value that follows it. -/
theorem not_accounts_min :
    UsesOne (ν := ℤ) (fun _ => .min)
        [.set ['x'] 0 (some .min), .set ['x'] 5 (some .min)] ∧
      ¬ Accounts (ν := ℤ) (fun v w => (v + w) / 2) (fun _ => .min) none
        [.set ['x'] 0 (some .min), .set ['x'] 5 (some .min)] := by
  refine ⟨?_, ?_⟩
  · intro name value agg hop
    simp only [List.mem_cons, Op.set.injEq, List.not_mem_nil, or_false] at hop
    rcases hop with ⟨-, -, rfl⟩ | ⟨-, -, rfl⟩ <;> rfl
  · rintro ⟨dicts, hrun, hagg, -⟩
    obtain rfl := Except.ok.inj hrun
    obtain ⟨hdict, -⟩ := List.forall₂_cons.mp hagg
    have hget := hdict.get? ['x']
    revert hget
    decide

end

end Pylyskom.Metrics
