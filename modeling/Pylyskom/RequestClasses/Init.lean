import Mathlib.Data.List.Perm.Subperm
import Mathlib.Data.Nat.Find
import Pylyskom.RequestClasses.Constructors

/-!
# Making requests

`Request.__init__` with positional and keyword arguments, and how it binds them. A Python
call binds each positional value to the parameter at its index and each keyword to the
parameter of its name; the loop of `__init__` only looks for the names it knows. The request
itself is bound to the first parameter of `__init__`, so that `self` is taken as a name.
-/

namespace Pylyskom

/-- The attributes of a request while `__init__` sets them. -/
structure RequestInstance (A : Type) where
  /-- What `hasattr` finds without the arguments. -/
  attributes : List String
  arguments : Dict String A
  args : List A
  serializedArgs : List Bytes

namespace RequestInstance

variable {D V A : Type}

def hasattr (self : RequestInstance A) (name : String) : Prop :=
  name ∈ self.attributes ∨ name ∈ self.arguments

instance (self : RequestInstance A) (name : String) : Decidable (self.hasattr name) :=
  inferInstanceAs (Decidable (_ ∨ _))

/-- `setattr` and the two `append`s. -/
def setArg (self : RequestInstance A) (name : String) (arg : A) (bytes : Bytes) :
    RequestInstance A :=
  { self with
    arguments := self.arguments.set name arg
    args := self.args ++ [arg]
    serializedArgs := self.serializedArgs ++ [bytes] }

/-- The value for an argument: positional, by keyword or its default. -/
def val (args : List V) (kwargs : Dict String V) (i : ℕ) (argDef : ArgDef D V) :
    Except Exn V :=
  match args[i]? with
  | some val => if argDef.name ∈ kwargs then .error (.builtinError .typeError) else .ok val
  | none =>
    match kwargs.get? argDef.name with
    | some val => .ok val
    | none =>
      match argDef.default with
      | none => .error (.builtinError .typeError)
      | some val => .ok val

section init

variable (construct : D → V → Except Exn A) (toString : A → Except Exn Bytes)
variable (args : List V) (kwargs : Dict String V)

/-- The loop of `Request.__init__`, from the argument with index `i` on. -/
def initFrom (i : ℕ) (self : RequestInstance A) :
    List (ArgDef D V) → Except Exn (RequestInstance A)
  | [] => .ok self
  | argDef :: ARGS => do
    let val ← val args kwargs i argDef
    if self.hasattr argDef.name then .error (.builtinError .assertionError)
    else
      let arg ← construct argDef.dataType val
      let bytes ← toString arg
      initFrom (i + 1) (self.setArg argDef.name arg bytes) ARGS

/-- `Request.__init__`, which Python does not call if the keywords would give `self` again. -/
def init (attributes : List String) (ARGS : List (ArgDef D V)) :
    Except Exn (RequestInstance A) :=
  if "self" ∈ kwargs then .error (.builtinError .typeError)
  else if args.length + kwargs.items.length > ARGS.length then .error (.builtinError .typeError)
  else initFrom construct toString args kwargs 0 ⟨attributes, ∅, [], []⟩ ARGS

end init

/-! ## Calls as Python binds them -/

/-- The value that a call binds to the parameter at an index. -/
def boundValue (args : List V) (kwargs : Dict String V) (i : ℕ) (argDef : ArgDef D V) :
    Option V :=
  args[i]? <|> kwargs.get? argDef.name <|> argDef.default

/-- The calls that a function with these parameters takes. -/
structure Binds (ARGS : List (ArgDef D V)) (args : List V) (kwargs : Dict String V) : Prop where
  length_le : args.length ≤ ARGS.length
  /-- Every keyword names a parameter that is not also given positionally. -/
  keyword : ∀ name ∈ kwargs, ∃ i, ∃ h : i < ARGS.length, ARGS[i].name = name ∧ args.length ≤ i
  /-- Every remaining parameter has a default. -/
  complete : ∀ (i : ℕ) (h : i < ARGS.length), args.length ≤ i → ARGS[i].name ∉ kwargs →
    ARGS[i].default ≠ none

/-- A value is acceptable to a data type if an argument can be made of it and serialized. -/
def Acceptable (construct : D → V → Except Exn A) (toString : A → Except Exn Bytes)
    (dataType : D) (val : V) : Prop :=
  ∃ arg bytes, construct dataType val = .ok arg ∧ toString arg = .ok bytes

/-! ## The loop -/

/-- The loop finds exactly one value for the argument, or its default. -/
def Filled (args : List V) (kwargs : Dict String V) (i : ℕ) (argDef : ArgDef D V) : Prop :=
  if i < args.length then argDef.name ∉ kwargs
  else argDef.name ∈ kwargs ∨ argDef.default ≠ none

section loop

variable {construct : D → V → Except Exn A} {toString : A → Except Exn Bytes}
variable {args : List V} {kwargs : Dict String V}

theorem val_of_filled {i : ℕ} {argDef : ArgDef D V} (h : Filled args kwargs i argDef) :
    ∃ v, boundValue args kwargs i argDef = some v ∧ val args kwargs i argDef = .ok v := by
  by_cases hi : i < args.length
  · have hpos : args[i]? = some args[i] := List.getElem?_eq_getElem hi
    rw [Filled, if_pos hi] at h
    exact ⟨args[i], by simp [boundValue, hpos], by simp [val, hpos, h]⟩
  · have hpos : args[i]? = none := List.getElem?_eq_none (by omega)
    rw [Filled, if_neg hi, Dict.mem_iff_isSome] at h
    cases hkw : kwargs.get? argDef.name with
    | some v => exact ⟨v, by simp [boundValue, hpos, hkw], by simp [val, hpos, hkw]⟩
    | none =>
      obtain ⟨v, hv⟩ := Option.ne_none_iff_exists'.mp (h.resolve_left (by simp [hkw]))
      exact ⟨v, by simp [boundValue, hpos, hkw, hv], by simp [val, hpos, hkw, hv]⟩

theorem val_of_not_filled {i : ℕ} {argDef : ArgDef D V} (h : ¬ Filled args kwargs i argDef) :
    val args kwargs i argDef = .error (.builtinError .typeError) := by
  by_cases hi : i < args.length
  · have hpos : args[i]? = some args[i] := List.getElem?_eq_getElem hi
    rw [Filled, if_pos hi, not_not] at h
    simp [val, hpos, h]
  · have hpos : args[i]? = none := List.getElem?_eq_none (by omega)
    rw [Filled, if_neg hi, not_or, not_not, ← Dict.get?_eq_none_iff] at h
    simp [val, hpos, h.1, h.2]

theorem initFrom_append (i : ℕ) (self : RequestInstance A) (before after : List (ArgDef D V)) :
    initFrom construct toString args kwargs i self (before ++ after) =
      (initFrom construct toString args kwargs i self before >>= fun self =>
        initFrom construct toString args kwargs (i + before.length) self after) := by
  induction before generalizing i self with
  | nil => rfl
  | cons argDef before ih =>
    simp only [List.cons_append, initFrom, bind_assoc, ih, List.length_cons]
    congr 1
    funext v
    split
    · rfl
    · simp only [bind_assoc]
      congr; funext arg; congr; funext bytes
      rw [Nat.add_assoc, Nat.add_comm 1]

/-- The name of another argument is as new as before. -/
theorem not_hasattr_setArg {self : RequestInstance A} {name other : String}
    (hne : other ≠ name) (arg : A) (bytes : Bytes) (hnew : ¬ self.hasattr other) :
    ¬ (self.setArg name arg bytes).hasattr other := by
  simpa [hasattr, setArg, hne] using hnew

/-- What the loop has made of the arguments `ARGS`, the first of which has index `i`. -/
structure Made (construct : D → V → Except Exn A) (toString : A → Except Exn Bytes)
    (args : List V) (kwargs : Dict String V) (i : ℕ) (start : RequestInstance A)
    (ARGS : List (ArgDef D V)) (made : List (A × Bytes)) (result : RequestInstance A) :
    Prop where
  length_eq : made.length = ARGS.length
  attributes_eq : result.attributes = start.attributes
  args_eq : result.args = start.args ++ made.map Prod.fst
  serializedArgs_eq : result.serializedArgs = start.serializedArgs ++ made.map Prod.snd
  other : ∀ name, name ∉ ARGS.map ArgDef.name →
    result.arguments.get? name = start.arguments.get? name
  each : ∀ (j : ℕ) (h : j < ARGS.length) (h' : j < made.length),
    ∃ v, boundValue args kwargs (i + j) ARGS[j] = some v ∧
      construct ARGS[j].dataType v = .ok made[j].1 ∧ toString made[j].1 = .ok made[j].2 ∧
      result.arguments.get? ARGS[j].name = some made[j].1

/-- The loop goes through arguments that are filled with acceptable values and have new
names. -/
theorem initFrom_made {i : ℕ} {self : RequestInstance A} {ARGS : List (ArgDef D V)}
    (hnodup : (ARGS.map ArgDef.name).Nodup)
    (hfilled : ∀ (j : ℕ) (h : j < ARGS.length), Filled args kwargs (i + j) ARGS[j])
    (hnew : ∀ argDef ∈ ARGS, ¬ self.hasattr argDef.name)
    (hacc : ∀ (j : ℕ) (h : j < ARGS.length) (v : V),
      boundValue args kwargs (i + j) ARGS[j] = some v →
        Acceptable construct toString ARGS[j].dataType v) :
    ∃ made self', initFrom construct toString args kwargs i self ARGS = .ok self' ∧
      Made construct toString args kwargs i self ARGS made self' := by
  induction ARGS generalizing i self with
  | nil => exact ⟨[], self, rfl, rfl, rfl, by simp, by simp, fun _ _ => rfl, by simp⟩
  | cons argDef ARGS ih =>
    rw [List.map_cons, List.nodup_cons] at hnodup
    obtain ⟨v, hbound, hval⟩ := val_of_filled (hfilled 0 (by simp))
    obtain ⟨arg, bytes, harg, hbytes⟩ := hacc 0 (by simp) v hbound
    -- the name that the first argument sets is not one of the others
    have hnew' : ∀ other ∈ ARGS, ¬ (self.setArg argDef.name arg bytes).hasattr other.name := by
      intro other hother
      refine not_hasattr_setArg (fun h => hnodup.1 ?_) arg bytes
        (hnew other (List.mem_cons_of_mem _ hother))
      exact h ▸ List.mem_map_of_mem hother
    have hshift (j : ℕ) : i + (j + 1) = i + 1 + j := by omega
    obtain ⟨made, self', hrun, hmade⟩ := @ih (i + 1) (self.setArg argDef.name arg bytes)
      hnodup.2
      (fun j h => hshift j ▸ hfilled (j + 1) (Nat.succ_lt_succ h)) hnew'
      (fun j h w hw => hacc (j + 1) (Nat.succ_lt_succ h) w (hshift j ▸ hw))
    refine ⟨(arg, bytes) :: made, self', ?_, ?_⟩
    · have hfirst : ¬ self.hasattr argDef.name := hnew argDef List.mem_cons_self
      simp only [Nat.add_zero, List.getElem_cons_zero] at hval harg
      simp only [initFrom, hval, bind, Except.bind, if_neg hfirst, harg, hbytes]
      exact hrun
    · refine ⟨by simp [hmade.length_eq], hmade.attributes_eq, ?_, ?_, ?_, ?_⟩
      · simp [hmade.args_eq, setArg]
      · simp [hmade.serializedArgs_eq, setArg]
      · intro name hname
        rw [List.map_cons, List.mem_cons, not_or] at hname
        rw [hmade.other name hname.2]
        simp [setArg, hname.1]
      · intro j h h'
        cases j with
        | zero =>
          refine ⟨v, hbound, harg, hbytes, ?_⟩
          rw [hmade.other _ (by simpa using hnodup.1)]
          simp [setArg]
        | succ j =>
          obtain ⟨w, hw⟩ := hmade.each j (by simpa using h) (by simpa using h')
          exact ⟨w, by simpa [hshift j] using hw⟩

/-- An argument that is not filled stops the loop. -/
theorem initFrom_of_not_filled {i : ℕ} {self : RequestInstance A} {argDef : ArgDef D V}
    (ARGS : List (ArgDef D V)) (h : ¬ Filled args kwargs i argDef) :
    initFrom construct toString args kwargs i self (argDef :: ARGS) =
      .error (.builtinError .typeError) := by
  rw [initFrom, val_of_not_filled h]
  rfl

/-- So does one with the name of an attribute. -/
theorem initFrom_of_hasattr {i : ℕ} {self : RequestInstance A} {argDef : ArgDef D V}
    (ARGS : List (ArgDef D V)) (h : Filled args kwargs i argDef)
    (hattr : self.hasattr argDef.name) :
    initFrom construct toString args kwargs i self (argDef :: ARGS) =
      .error (.builtinError .assertionError) := by
  obtain ⟨v, -, hval⟩ := val_of_filled h
  rw [initFrom, hval]
  exact if_pos hattr

/-- The values that a call with these parameters binds are acceptable. -/
def AllAcceptable (construct : D → V → Except Exn A) (toString : A → Except Exn Bytes)
    (ARGS : List (ArgDef D V)) (args : List V) (kwargs : Dict String V) : Prop :=
  ∀ (i : ℕ) (h : i < ARGS.length) (v : V), boundValue args kwargs i ARGS[i] = some v →
    Acceptable construct toString ARGS[i].dataType v

/-- All arguments are filled and may be set. -/
theorem initFrom_all {attributes : List String} {ARGS : List (ArgDef D V)}
    (hnodup : (ARGS.map ArgDef.name).Nodup)
    (hacc : AllAcceptable construct toString ARGS args kwargs)
    (hfilled : ∀ (i : ℕ) (h : i < ARGS.length), Filled args kwargs i ARGS[i])
    (hnew : ∀ argDef ∈ ARGS, argDef.name ∉ attributes) :
    ∃ made self, initFrom construct toString args kwargs 0 ⟨attributes, ∅, [], []⟩ ARGS =
        .ok self ∧
      Made construct toString args kwargs 0 ⟨attributes, ∅, [], []⟩ ARGS made self :=
  initFrom_made hnodup (fun j h => by simpa using hfilled j h)
    (fun argDef h => by simpa [hasattr] using hnew argDef h)
    (fun j h v hv => hacc j h v (by simpa using hv))

/-- The first argument that is not filled or has the name of an attribute decides which
exception the loop raises. -/
theorem initFrom_first {attributes : List String} {ARGS : List (ArgDef D V)}
    (hnodup : (ARGS.map ArgDef.name).Nodup)
    (hacc : AllAcceptable construct toString ARGS args kwargs) {k : ℕ} (hk : k < ARGS.length)
    (hbefore : ∀ (i : ℕ) (h : i < ARGS.length), i < k →
      Filled args kwargs i ARGS[i] ∧ ARGS[i].name ∉ attributes) :
    (¬ Filled args kwargs k ARGS[k] →
      initFrom construct toString args kwargs 0 ⟨attributes, ∅, [], []⟩ ARGS =
        .error (.builtinError .typeError)) ∧
    (Filled args kwargs k ARGS[k] → ARGS[k].name ∈ attributes →
      initFrom construct toString args kwargs 0 ⟨attributes, ∅, [], []⟩ ARGS =
        .error (.builtinError .assertionError)) := by
  have hsplit : ARGS = ARGS.take k ++ ARGS[k] :: ARGS.drop (k + 1) := by
    rw [List.getElem_cons_drop, List.take_append_drop]
  have hlen : (ARGS.take k).length = k := List.length_take_of_le (Nat.le_of_lt hk)
  have hget (j : ℕ) (h : j < (ARGS.take k).length) (hj : j < ARGS.length) :
      (ARGS.take k)[j] = ARGS[j] := List.getElem_take
  -- the loop goes through the arguments before `k`
  have hbefore' (j : ℕ) (h : j < (ARGS.take k).length) :
      Filled args kwargs (0 + j) (ARGS.take k)[j] := by
    rw [hget j h (by omega), Nat.zero_add]
    exact (hbefore j (by omega) (by omega)).1
  have hnew : ∀ argDef ∈ ARGS.take k,
      ¬ (⟨attributes, ∅, [], []⟩ : RequestInstance A).hasattr argDef.name := by
    intro argDef h
    obtain ⟨j, hj, rfl⟩ := List.getElem_of_mem h
    rw [hget j hj (by omega)]
    simpa [hasattr] using (hbefore j (by omega) (by omega)).2
  have hacc' (j : ℕ) (h : j < (ARGS.take k).length) (v : V)
      (hv : boundValue args kwargs (0 + j) (ARGS.take k)[j] = some v) :
      Acceptable construct toString (ARGS.take k)[j].dataType v := by
    rw [hget j h (by omega)] at hv ⊢
    exact hacc j (by omega) v (by simpa using hv)
  have hnodup' : ((ARGS.take k).map ArgDef.name).Nodup :=
    hnodup.sublist ((List.take_sublist k ARGS).map ArgDef.name)
  obtain ⟨made, self, hrun, hmade⟩ := initFrom_made hnodup' hbefore' hnew hacc'
  have hrest : initFrom construct toString args kwargs 0 ⟨attributes, ∅, [], []⟩ ARGS =
      initFrom construct toString args kwargs k self (ARGS[k] :: ARGS.drop (k + 1)) := by
    conv_lhs => rw [hsplit, initFrom_append, hrun, hlen, Nat.zero_add]
    rfl
  rw [hrest]
  refine ⟨initFrom_of_not_filled _, fun hfilled hattr => initFrom_of_hasattr _ hfilled ?_⟩
  exact Or.inl (hmade.attributes_eq ▸ hattr)

end loop

/-! ## Binding -/

/-- A request is made of the calls that Python takes, each parameter getting the value that is
bound to it; any other call raises `TypeError`. -/
structure BindsLikeCall (construct : D → V → Except Exn A) (toString : A → Except Exn Bytes)
    (attributes : List String) (ARGS : List (ArgDef D V)) (args : List V)
    (kwargs : Dict String V) : Prop where
  of_binds : Binds ARGS args kwargs →
    ∃ self, init construct toString args kwargs attributes ARGS = .ok self ∧
      ∀ (i : ℕ) (h : i < ARGS.length), ∃ v arg, boundValue args kwargs i ARGS[i] = some v ∧
        construct ARGS[i].dataType v = .ok arg ∧ self.arguments.get? ARGS[i].name = some arg
  otherwise : ¬ Binds ARGS args kwargs →
    init construct toString args kwargs attributes ARGS = .error (.builtinError .typeError)

/-- A keyword names no parameter, but there are not too many values, and the parameters are
filled without it. -/
structure DropsKeyword (ARGS : List (ArgDef D V)) (args : List V) (kwargs : Dict String V) :
    Prop where
  notSelf : "self" ∉ kwargs
  count : args.length + kwargs.items.length ≤ ARGS.length
  filled : ∀ (i : ℕ) (h : i < ARGS.length), Filled args kwargs i ARGS[i]
  unknown : ∃ name ∈ kwargs, name ∉ ARGS.map ArgDef.name

/-- A parameter that the loop comes to has the name of an attribute that every request has. -/
structure NamesAttribute (attributes : List String) (ARGS : List (ArgDef D V)) (args : List V)
    (kwargs : Dict String V) : Prop where
  notSelf : "self" ∉ kwargs
  count : args.length + kwargs.items.length ≤ ARGS.length
  reached : ∃ (k : ℕ) (hk : k < ARGS.length), ARGS[k].name ∈ attributes ∧
    ∀ (i : ℕ) (h : i ≤ k), Filled args kwargs i ARGS[i]

/-- A parameter is called `self` and given by keyword, and all parameters are filled by keywords
that name them. -/
structure NamesSelf (ARGS : List (ArgDef D V)) (args : List V) (kwargs : Dict String V) :
    Prop where
  given : "self" ∈ kwargs
  count : args.length + kwargs.items.length ≤ ARGS.length
  filled : ∀ (i : ℕ) (h : i < ARGS.length), Filled args kwargs i ARGS[i]
  known : ∀ name ∈ kwargs, name ∈ ARGS.map ArgDef.name

section binding

variable {ARGS : List (ArgDef D V)} {args : List V} {kwargs : Dict String V}

/-- A call that Python takes does not give too many values. -/
theorem Binds.count (h : Binds ARGS args kwargs) :
    args.length + kwargs.items.length ≤ ARGS.length := by
  have hsub : kwargs.keys ⊆ (ARGS.drop args.length).map ArgDef.name := by
    intro name hname
    obtain ⟨i, hi, rfl, hle⟩ := h.keyword name hname
    refine List.mem_map_of_mem (List.mem_iff_getElem.mpr ⟨i - args.length, ?_, ?_⟩)
    · rw [List.length_drop]; omega
    · rw [List.getElem_drop]
      congr 1
      omega
  have hle := (List.Nodup.subperm kwargs.nodup hsub).length_le
  have hlen := h.length_le
  rw [List.length_map, List.length_map, List.length_drop] at hle
  omega

/-- And fills each parameter. -/
theorem Binds.filled (h : Binds ARGS args kwargs) (hnodup : (ARGS.map ArgDef.name).Nodup)
    (i : ℕ) (hi : i < ARGS.length) : Filled args kwargs i ARGS[i] := by
  rw [Filled]
  split
  · next hpos =>
    intro hmem
    obtain ⟨j, hj, hname, hle⟩ := h.keyword _ hmem
    have hi' : i < (ARGS.map ArgDef.name).length := by simpa using hi
    have hj' : j < (ARGS.map ArgDef.name).length := by simpa using hj
    have hname' : (ARGS.map ArgDef.name)[j] = (ARGS.map ArgDef.name)[i] := by simpa using hname
    have hij := hnodup.getElem_inj_iff.mp hname'
    omega
  · next hpos => exact or_iff_not_imp_left.mpr (h.complete i hi (by omega))

/-- If every parameter is filled, Python takes the call unless it has an unknown keyword. -/
theorem binds_of_filled (hlen : args.length ≤ ARGS.length)
    (hfilled : ∀ (i : ℕ) (h : i < ARGS.length), Filled args kwargs i ARGS[i])
    (hknown : ∀ name ∈ kwargs, name ∈ ARGS.map ArgDef.name) : Binds ARGS args kwargs where
  length_le := hlen
  keyword name hname := by
    obtain ⟨argDef, hmem, rfl⟩ := List.mem_map.mp (hknown name hname)
    obtain ⟨i, hi, rfl⟩ := List.getElem_of_mem hmem
    refine ⟨i, hi, rfl, Nat.le_of_not_lt fun hpos => ?_⟩
    have h := hfilled i hi
    rw [Filled, if_pos hpos] at h
    exact h hname
  complete i hi hle hnot := by
    have h := hfilled i hi
    rw [Filled, if_neg (by omega)] at h
    exact h.resolve_left hnot

variable {construct : D → V → Except Exn A} {toString : A → Except Exn Bytes}
variable {attributes : List String}

theorem init_of_self (hself : "self" ∈ kwargs) :
    init construct toString args kwargs attributes ARGS = .error (.builtinError .typeError) :=
  if_pos hself

theorem init_of_count (hself : "self" ∉ kwargs)
    (hcount : args.length + kwargs.items.length ≤ ARGS.length) :
    init construct toString args kwargs attributes ARGS =
      initFrom construct toString args kwargs 0 ⟨attributes, ∅, [], []⟩ ARGS := by
  rw [init, if_neg hself, if_neg (by omega)]

variable (attributes) in
/-- The loop either makes all arguments, or stops at the first one that is not filled or has
the name of an attribute. -/
theorem init_cases (hnodup : (ARGS.map ArgDef.name).Nodup)
    (hacc : AllAcceptable construct toString ARGS args kwargs) (hself : "self" ∉ kwargs)
    (hcount : args.length + kwargs.items.length ≤ ARGS.length) :
    ((∀ (i : ℕ) (h : i < ARGS.length), Filled args kwargs i ARGS[i]) ∧
        ¬ NamesAttribute attributes ARGS args kwargs ∧
        ∃ made self, init construct toString args kwargs attributes ARGS = .ok self ∧
          Made construct toString args kwargs 0 ⟨attributes, ∅, [], []⟩ ARGS made self) ∨
      ((∃ (k : ℕ) (hk : k < ARGS.length), ¬ Filled args kwargs k ARGS[k]) ∧
        ¬ NamesAttribute attributes ARGS args kwargs ∧
        init construct toString args kwargs attributes ARGS = .error (.builtinError .typeError)) ∨
      (NamesAttribute attributes ARGS args kwargs ∧
        init construct toString args kwargs attributes ARGS =
          .error (.builtinError .assertionError)) := by
  classical
  rw [init_of_count hself hcount]
  by_cases hall : ∀ (i : ℕ) (h : i < ARGS.length),
      Filled args kwargs i ARGS[i] ∧ ARGS[i].name ∉ attributes
  · left
    refine ⟨fun i h => (hall i h).1, ?_, initFrom_all hnodup hacc (fun i h => (hall i h).1) ?_⟩
    · intro hnames
      obtain ⟨k, hk, hattr, -⟩ := hnames.reached
      exact (hall k hk).2 hattr
    · intro argDef hmem
      obtain ⟨i, hi, rfl⟩ := List.getElem_of_mem hmem
      exact (hall i hi).2
  · right
    have hex : ∃ k, ∃ h : k < ARGS.length,
        ¬ (Filled args kwargs k ARGS[k] ∧ ARGS[k].name ∉ attributes) := by
      push Not at hall ⊢
      exact hall
    obtain ⟨hk, hbad⟩ := Nat.find_spec hex
    have hbefore (i : ℕ) (h : i < ARGS.length) (hlt : i < Nat.find hex) :
        Filled args kwargs i ARGS[i] ∧ ARGS[i].name ∉ attributes := by
      by_contra hnot
      exact Nat.find_min hex hlt ⟨h, hnot⟩
    obtain ⟨htype, hassert⟩ := initFrom_first hnodup hacc hk hbefore
    by_cases hfilled : Filled args kwargs (Nat.find hex) ARGS[Nat.find hex]
    · right
      have hattr : ARGS[Nat.find hex].name ∈ attributes := by
        by_contra hnot
        exact hbad ⟨hfilled, hnot⟩
      refine ⟨⟨hself, hcount, _, hk, hattr, fun i h => ?_⟩, hassert hfilled hattr⟩
      rcases Nat.lt_or_eq_of_le h with hlt | rfl
      · exact (hbefore i (by omega) hlt).1
      · exact hfilled
    · left
      refine ⟨⟨_, hk, hfilled⟩, fun hnames => ?_, htype hfilled⟩
      obtain ⟨k, hk', hattr, hle⟩ := hnames.reached
      rcases Nat.lt_or_ge k (Nat.find hex) with hlt | hge
      · exact (hbefore k hk' hlt).2 hattr
      · exact hfilled (hle _ hge)

/-- A call that Python takes gives all its keywords to parameters. -/
theorem Binds.known (h : Binds ARGS args kwargs) :
    ∀ name ∈ kwargs, name ∈ ARGS.map ArgDef.name := by
  intro name hname
  obtain ⟨i, hi, rfl, -⟩ := h.keyword name hname
  exact List.mem_map_of_mem (List.getElem_mem hi)

/-- With `self` among the keywords no request is made, so that Python must not take the call. -/
theorem bindsLikeCall_iff_of_self (hnodup : (ARGS.map ArgDef.name).Nodup)
    (hself : "self" ∈ kwargs) :
    BindsLikeCall construct toString attributes ARGS args kwargs ↔
      ¬ NamesSelf ARGS args kwargs := by
  have hinit : init construct toString args kwargs attributes ARGS =
      .error (.builtinError .typeError) := init_of_self hself
  constructor
  · rintro h hnames
    have hlen : args.length ≤ ARGS.length := Nat.le_of_add_right_le hnames.count
    obtain ⟨self, hok, -⟩ := h.of_binds (binds_of_filled hlen hnames.filled hnames.known)
    rw [hinit] at hok
    cases hok
  · refine fun hnames => ⟨fun hbinds => absurd ?_ hnames, fun _ => hinit⟩
    exact ⟨hself, hbinds.count, hbinds.filled hnodup, hbinds.known⟩

/-- Without it the loop decides. -/
theorem bindsLikeCall_iff_of_not_self (hnodup : (ARGS.map ArgDef.name).Nodup)
    (hacc : AllAcceptable construct toString ARGS args kwargs) (hself : "self" ∉ kwargs) :
    BindsLikeCall construct toString attributes ARGS args kwargs ↔
      ¬ DropsKeyword ARGS args kwargs ∧ ¬ NamesAttribute attributes ARGS args kwargs := by
  by_cases hcount : args.length + kwargs.items.length ≤ ARGS.length
  · rcases init_cases attributes hnodup hacc hself hcount with
      ⟨hfilled, hattr, made, self, hinit, hmade⟩ | ⟨⟨k, hk, hbad⟩, hattr, hinit⟩ |
      ⟨hattr, hinit⟩
    · constructor
      · intro h
        refine ⟨fun hdrops => ?_, hattr⟩
        obtain ⟨name, hname, hunknown⟩ := hdrops.unknown
        have herror := h.otherwise fun hbinds => hunknown (hbinds.known name hname)
        rw [hinit] at herror
        cases herror
      · rintro ⟨hdrops, -⟩
        have hbinds : Binds ARGS args kwargs := by
          refine binds_of_filled (by omega) hfilled fun name hname => ?_
          by_contra hunknown
          exact hdrops ⟨hself, hcount, hfilled, name, hname, hunknown⟩
        refine ⟨fun _ => ⟨self, hinit, fun i hi => ?_⟩, fun hnot => absurd hbinds hnot⟩
        obtain ⟨v, hv, harg, -, hget⟩ := hmade.each i hi (by rw [hmade.length_eq]; exact hi)
        rw [Nat.zero_add] at hv
        exact ⟨v, _, hv, harg, hget⟩
    · have hnot : ¬ Binds ARGS args kwargs := fun hbinds => hbad (hbinds.filled hnodup k hk)
      refine ⟨fun _ => ⟨fun hdrops => hbad (hdrops.filled k hk), hattr⟩, fun _ => ?_⟩
      exact ⟨fun hbinds => absurd hbinds hnot, fun _ => hinit⟩
    · refine ⟨fun h => ?_, fun h => absurd hattr h.2⟩
      by_cases hbinds : Binds ARGS args kwargs
      · obtain ⟨self, hok, -⟩ := h.of_binds hbinds
        rw [hinit] at hok
        cases hok
      · have herror := h.otherwise hbinds
        rw [hinit] at herror
        cases herror
  · have hnot : ¬ Binds ARGS args kwargs := fun hbinds => hcount hbinds.count
    have hinit : init construct toString args kwargs attributes ARGS =
        .error (.builtinError .typeError) := by
      rw [init, if_neg hself, if_pos (by omega)]
    refine ⟨fun _ => ⟨fun h => hcount h.count, fun h => hcount h.count⟩, fun _ => ?_⟩
    exact ⟨fun hbinds => absurd hbinds hnot, fun _ => hinit⟩

/-- Arguments bind like a Python call, except that a keyword which names no parameter is
dropped when the parameters are filled without it, and that neither `self` nor the names of
attributes can be parameters. -/
theorem bindsLikeCall_iff (hnodup : (ARGS.map ArgDef.name).Nodup)
    (hacc : AllAcceptable construct toString ARGS args kwargs) :
    BindsLikeCall construct toString attributes ARGS args kwargs ↔
      ¬ DropsKeyword ARGS args kwargs ∧ ¬ NamesAttribute attributes ARGS args kwargs ∧
        ¬ NamesSelf ARGS args kwargs := by
  by_cases hself : "self" ∈ kwargs
  · rw [bindsLikeCall_iff_of_self hnodup hself]
    refine ⟨fun h => ⟨?_, ?_, h⟩, fun h => h.2.2⟩
    · exact fun hdrops => hdrops.notSelf hself
    · exact fun hattr => hattr.notSelf hself
  · rw [bindsLikeCall_iff_of_not_self hnodup hacc hself]
    refine ⟨fun h => ⟨h.1, h.2, ?_⟩, fun h => ⟨h.1, h.2.1⟩⟩
    exact fun hnames => hself hnames.given

end binding

end RequestInstance

open RequestInstance

/-- `Request.__init__` of a class. -/
def ClassDef.init (self : ClassDef) (args : List Value) (kwargs : Dict String Value) :
    Except Exn (RequestInstance Instance) :=
  RequestInstance.init ArgClass.construct Instance.toString args kwargs requestAttributes
    self.args

/-- A copied instance of the data type is acceptable. -/
theorem acceptable_of_isCopied {dataType : ArgClass} {val : Value}
    (h : dataType.accepts val = true) (hcopied : val.IsCopied) :
    Acceptable ArgClass.construct Instance.toString dataType val := by
  have hserialize := ArgClass.serialize_eq h
  rw [if_pos hcopied, ArgClass.serialize] at hserialize
  cases harg : dataType.construct val with
  | error e => rw [harg] at hserialize; cases hserialize
  | ok arg =>
    rw [harg] at hserialize
    exact ⟨arg, val.toString, harg, hserialize⟩

theorem bindsLikeCall_ReqLogin :
    BindsLikeCall ArgClass.construct Instance.toString requestAttributes ReqLogin.classDef.args
        [.plain (.int 5)] ((∅ : Dict String Value).set "password" (.plain (.string (ascii "pw")))) ↔
      ¬ DropsKeyword ReqLogin.classDef.args [.plain (.int 5)]
          ((∅ : Dict String Value).set "password" (.plain (.string (ascii "pw")))) ∧
        ¬ NamesAttribute requestAttributes ReqLogin.classDef.args [.plain (.int 5)]
          ((∅ : Dict String Value).set "password" (.plain (.string (ascii "pw")))) ∧
        ¬ NamesSelf ReqLogin.classDef.args [.plain (.int 5)]
          ((∅ : Dict String Value).set "password" (.plain (.string (ascii "pw")))) := by
  refine bindsLikeCall_iff (by decide +kernel) fun i hi v hv => ?_
  match i, hi with
  | 0, _ => cases hv; exact acceptable_of_isCopied rfl trivial
  | 1, _ => cases hv; exact acceptable_of_isCopied rfl trivial
  | 2, _ => cases hv; exact acceptable_of_isCopied rfl trivial

/-- `ReqLogin(5, b"pw", foo=1)` makes a request, as `invisible` has a default. -/
theorem not_bindsLikeCall_ReqLogin :
    ¬ BindsLikeCall ArgClass.construct Instance.toString requestAttributes ReqLogin.classDef.args
      [.plain (.int 5), .plain (.string (ascii "pw"))]
      ((∅ : Dict String Value).set "foo" (.plain (.int 1))) := by
  intro h
  have hnot : ¬ Binds ReqLogin.classDef.args
      [.plain (.int 5), .plain (.string (ascii "pw"))]
      ((∅ : Dict String Value).set "foo" (.plain (.int 1))) := by
    intro hbinds
    obtain ⟨i, hi, hname, -⟩ := hbinds.keyword "foo" (by decide +kernel)
    have hall : ∀ argDef ∈ ReqLogin.classDef.args, argDef.name ≠ "foo" := by decide +kernel
    exact hall _ (List.getElem_mem hi) hname
  have herror := h.otherwise hnot
  cases herror

end Pylyskom
