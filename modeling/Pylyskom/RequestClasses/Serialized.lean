import Pylyskom.RequestClasses.Init

/-!
# Serialized arguments

When a request is made of instances of its data types, the arguments are made again, and
what is sent is what came of that. For most data types this is what the instances
themselves serialize to; a `Time` and a list with a `ReadRange` cannot be sent.
-/

namespace Pylyskom

namespace RequestInstance

variable {D V A : Type} {construct : D → V → Except Exn A} {toString : A → Except Exn Bytes}
variable {args : List V} {kwargs : Dict String V}

/-- The loop ends only if it could make all arguments. -/
theorem acceptable_of_initFrom_eq_ok {i : ℕ} {start result : RequestInstance A}
    {ARGS : List (ArgDef D V)}
    (h : initFrom construct toString args kwargs i start ARGS = .ok result)
    (j : ℕ) (hj : j < ARGS.length) {v : V}
    (hv : boundValue args kwargs (i + j) ARGS[j] = some v) :
    Acceptable construct toString ARGS[j].dataType v := by
  induction ARGS generalizing i start j with
  | nil => simp at hj
  | cons argDef ARGS ih =>
    by_cases hfilled : Filled args kwargs i argDef
    · by_cases hattr : start.hasattr argDef.name
      · rw [initFrom_of_hasattr ARGS hfilled hattr] at h
        cases h
      · obtain ⟨w, hbound, hval⟩ := val_of_filled hfilled
        rw [initFrom, hval] at h
        simp only [bind, Except.bind, if_neg hattr] at h
        cases harg : construct argDef.dataType w with
        | error e => rw [harg] at h; cases h
        | ok arg =>
          rw [harg] at h
          simp only [] at h
          cases hbytes : toString arg with
          | error e => rw [hbytes] at h; cases h
          | ok bytes =>
            rw [hbytes] at h
            cases j with
            | zero =>
              have hw : w = v := Option.some.inj (hbound.symm.trans hv)
              subst hw
              exact ⟨arg, bytes, harg, hbytes⟩
            | succ j =>
              have hshift : i + (j + 1) = i + 1 + j := by omega
              exact ih h j (Nat.lt_of_succ_lt_succ hj) (hshift ▸ hv)
    · rw [initFrom_of_not_filled ARGS hfilled] at h
      cases h

/-- A request is made only of acceptable values. -/
theorem allAcceptable_of_init_eq_ok {attributes : List String} {ARGS : List (ArgDef D V)}
    {self : RequestInstance A}
    (h : init construct toString args kwargs attributes ARGS = .ok self) :
    AllAcceptable construct toString ARGS args kwargs := by
  rw [init] at h
  split_ifs at h
  exact fun i hi v hv => acceptable_of_initFrom_eq_ok h i hi (by rwa [Nat.zero_add])

/-- A call that Python takes makes a request of acceptable values. -/
theorem init_made {attributes : List String} {ARGS : List (ArgDef D V)}
    (hnodup : (ARGS.map ArgDef.name).Nodup)
    (hnew : ∀ argDef ∈ ARGS, argDef.name ∉ attributes)
    (hself : "self" ∉ ARGS.map ArgDef.name) (hbinds : Binds ARGS args kwargs)
    (hacc : AllAcceptable construct toString ARGS args kwargs) :
    ∃ made self, init construct toString args kwargs attributes ARGS = .ok self ∧
      Made construct toString args kwargs 0 ⟨attributes, ∅, [], []⟩ ARGS made self := by
  rw [init_of_count (fun hgiven => hself (hbinds.known _ hgiven)) hbinds.count]
  exact initFrom_all hnodup hacc (hbinds.filled hnodup) hnew

end RequestInstance

open RequestInstance

/-- An acceptable instance of a data type is one that is copied. -/
theorem acceptable_iff_isCopied {dataType : ArgClass} {val : Value}
    (h : dataType.accepts val = true) :
    Acceptable ArgClass.construct Instance.toString dataType val ↔ val.IsCopied := by
  refine ⟨?_, acceptable_of_isCopied h⟩
  rintro ⟨arg, bytes, harg, hbytes⟩
  by_contra hcopied
  have hserialize := ArgClass.serialize_eq h
  rw [if_neg hcopied, ArgClass.serialize, harg] at hserialize
  have hfail := hbytes.symm.trans hserialize
  cases hfail

/-- The instances that a call binds to the parameters of a class. -/
structure BoundTo (cls : ClassDef) (args : List Value) (kwargs : Dict String Value)
    (vals : List Value) : Prop where
  binds : Binds cls.args args kwargs
  bound : ∀ (i : ℕ) (h : i < cls.args.length),
    boundValue args kwargs i cls.args[i] = vals[i]?
  instances : List.Forall₂ (fun argDef val => argDef.dataType.accepts val = true) cls.args vals

theorem BoundTo.accepts {cls : ClassDef} {args : List Value} {kwargs : Dict String Value}
    {vals : List Value} (h : BoundTo cls args kwargs vals) (i : ℕ) (hi : i < cls.args.length)
    (hi' : i < vals.length) : cls.args[i].dataType.accepts vals[i] = true :=
  h.instances.get hi hi'

/-- A request class serializes the instances it is given as they serialize themselves,
except a `Time` and a list with a `ReadRange`, of which no request can be made. -/
theorem serializes_iff {cls : ClassDef} (hcls : cls ∈ allRequestClasses) {args : List Value}
    {kwargs : Dict String Value} {vals : List Value} (hvals : BoundTo cls args kwargs vals) :
    (∃ self, cls.init args kwargs = .ok self ∧ self.serializedArgs = vals.map Value.toString) ↔
      ∀ val ∈ vals, val.IsCopied := by
  obtain ⟨hnodup, hnew, hself⟩ := names_of_mem hcls
  have hlen : cls.args.length = vals.length := hvals.instances.length_eq
  constructor
  · rintro ⟨self, hinit, -⟩ val hval
    obtain ⟨i, hi, rfl⟩ := List.getElem_of_mem hval
    have hi' : i < cls.args.length := by omega
    have hbound : boundValue args kwargs i cls.args[i] = some vals[i] := by
      rw [hvals.bound i hi', List.getElem?_eq_getElem hi]
    have hacc := allAcceptable_of_init_eq_ok hinit i hi' _ hbound
    exact (acceptable_iff_isCopied (hvals.accepts i hi' hi)).mp hacc
  · intro hcopied
    have hacc : AllAcceptable ArgClass.construct Instance.toString cls.args args kwargs := by
      intro i hi v hv
      have hi' : i < vals.length := by omega
      rw [hvals.bound i hi, List.getElem?_eq_getElem hi', Option.some.injEq] at hv
      subst hv
      exact acceptable_of_isCopied (hvals.accepts i hi hi') (hcopied _ (List.getElem_mem hi'))
    obtain ⟨made, self, hinit, hmade⟩ := init_made hnodup hnew hself hvals.binds hacc
    refine ⟨self, hinit, ?_⟩
    rw [hmade.serializedArgs_eq, List.nil_append]
    refine List.ext_getElem (by simp [hmade.length_eq, hlen]) fun i hi hi' => ?_
    rw [List.length_map] at hi hi'
    have hi'' : i < cls.args.length := by omega
    obtain ⟨v, hv, harg, hbytes, -⟩ := hmade.each i hi'' hi
    rw [Nat.zero_add, hvals.bound i hi'', List.getElem?_eq_getElem hi', Option.some.injEq] at hv
    subst hv
    have hserialize := ArgClass.serialize_eq (hvals.accepts i hi'' hi')
    rw [if_pos (hcopied _ (List.getElem_mem hi')), ArgClass.serialize, harg] at hserialize
    rw [List.getElem_map, List.getElem_map]
    exact Except.ok.inj (hbytes.symm.trans hserialize)

def sampleItems : List AuxItemInput :=
  [{ tag := 1, data := ascii "text/plain" }, { tag := 15, inheritLimit := 1, data := ascii "x" }]

def sampleType : ArgValue CookedMiscInfo := .bitstring (List.replicate 8 true)

/-- A name and a type given in their order, and items by keyword. -/
theorem boundTo_ReqCreateConf :
    BoundTo ReqCreateConf.classDef [.plain (.string (ascii "Inbox")), .plain sampleType]
      ((∅ : Dict String Value).set "aux_items" (.plain (.arrayAuxItemInput sampleItems)))
      [.plain (.string (ascii "Inbox")), .plain sampleType,
        .plain (.arrayAuxItemInput sampleItems)] where
  binds := {
    length_le := by decide
    keyword := by
      intro name hname
      obtain rfl : name = "aux_items" := by simpa using hname
      exact ⟨2, by decide, rfl, Nat.le_refl 2⟩
    complete := by
      intro i hi hle hnot
      obtain rfl : i = 2 := Nat.le_antisymm (Nat.le_of_lt_succ hi) hle
      exact absurd (Dict.mem_set.mpr (Or.inl rfl)) hnot }
  bound i hi := by
    match i, hi with
    | 0, _ => rfl
    | 1, _ => rfl
    | 2, _ => rfl
  instances := .cons rfl (.cons rfl (.cons rfl .nil))

theorem serializes_ReqCreateConf :
    (∃ self, ReqCreateConf.classDef.init
        [.plain (.string (ascii "Inbox")), .plain sampleType]
        ((∅ : Dict String Value).set "aux_items" (.plain (.arrayAuxItemInput sampleItems))) =
          .ok self ∧
        self.serializedArgs =
          [Value.plain (.string (ascii "Inbox")), .plain sampleType,
            .plain (.arrayAuxItemInput sampleItems)].map Value.toString) ↔
      ∀ val ∈ [Value.plain (.string (ascii "Inbox")), .plain sampleType,
        .plain (.arrayAuxItemInput sampleItems)], val.IsCopied :=
  serializes_iff (List.mem_append_left _ (List.mem_map_of_mem (by simp [requestClasses])))
    boundTo_ReqCreateConf

/-- The arguments of `ReqSetReadRanges`, given in their order. -/
theorem boundTo_ReqSetReadRanges (ranges : List ReadRange) :
    BoundTo ReqSetReadRanges [.plain (.int 7), .readRanges ranges] ∅
      [.plain (.int 7), .readRanges ranges] where
  binds := {
    length_le := Nat.le_refl 2
    keyword := fun name hname => absurd hname (Dict.not_mem_empty name)
    complete := fun i hi hle => absurd hi (Nat.not_lt.mpr hle) }
  bound i hi := by
    match i, hi with
    | 0, _ => rfl
    | 1, _ => rfl
  instances := .cons rfl (.cons rfl .nil)

/-- `ReqSetReadRanges(7, [ReadRange(1, 5)])` raises `TypeError`. -/
theorem not_serializes_ReqSetReadRanges :
    ReqSetReadRanges ∈ allRequestClasses ∧
      BoundTo ReqSetReadRanges [.plain (.int 7), .readRanges [⟨1, 5⟩]] ∅
        [.plain (.int 7), .readRanges [⟨1, 5⟩]] ∧
      ¬ ∃ self, ReqSetReadRanges.init [.plain (.int 7), .readRanges [⟨1, 5⟩]] ∅ = .ok self ∧
        self.serializedArgs =
          [Value.plain (.int 7), Value.readRanges [⟨1, 5⟩]].map Value.toString := by
  refine ⟨List.mem_append_right _ (List.mem_cons_of_mem _ List.mem_cons_self),
    boundTo_ReqSetReadRanges _, ?_⟩
  rintro ⟨self, h, -⟩
  cases h

/-! ## Requests of the other classes -/

/-- The value for an argument, looked for among what is left of the positional values. -/
theorem val_argDef (args : List (ArgValue CookedMiscInfo))
    (kwargs : Dict String (ArgValue CookedMiscInfo)) (i : ℕ) (argDef : Argument) :
    val (args.map Value.plain) (kwargs.mapValues Value.plain) i argDef.argDef =
      (val args kwargs i ⟨argDef.name, argDef.dataType, argDef.default⟩).map Value.plain := by
  rw [val, val, List.getElem?_map]
  cases args[i]? with
  | some v =>
    by_cases h : argDef.name ∈ kwargs
    · simp [Argument.argDef, h, Except.map]
    · simp [Argument.argDef, h, Except.map]
  | none =>
    simp only [Argument.argDef, Dict.get?_mapValues, Option.map_none]
    cases kwargs.get? argDef.name with
    | some v => rfl
    | none =>
      cases argDef.default with
      | some v => rfl
      | none => rfl

/-- `initArgs` takes the same value, and goes on with what is left. -/
theorem initArgs_cons (args : List (ArgValue CookedMiscInfo))
    (kwargs : Dict String (ArgValue CookedMiscInfo)) (i : ℕ) (argDef : Argument)
    (ARGS : List Argument) :
    initArgs kwargs (argDef :: ARGS) (args.drop i) = (do
      let v ← val args kwargs i ⟨argDef.name, argDef.dataType, argDef.default⟩
      let arg ← argDef.construct v
      let rest ← initArgs kwargs ARGS (args.drop (i + 1))
      return ⟨arg.1 :: rest.1, .cons arg.2 rest.2⟩) := by
  cases hpos : args[i]? with
  | some v =>
    have hdrop : args.drop i = v :: args.drop (i + 1) := by
      obtain ⟨hi, rfl⟩ := List.getElem?_eq_some_iff.mp hpos
      exact List.drop_eq_getElem_cons hi
    rw [hdrop, initArgs]
    by_cases hkw : argDef.name ∈ kwargs
    · simp [val, hpos, hkw, bind, Except.bind]
    · simp [val, hpos, hkw, bind, Except.bind]
  | none =>
    have hle : args.length ≤ i := List.getElem?_eq_none_iff.mp hpos
    rw [List.drop_eq_nil_of_le hle, List.drop_eq_nil_of_le (by omega), initArgs, val, hpos]
    cases kwargs.get? argDef.name with
    | some v => rfl
    | none =>
      cases argDef.default with
      | some v => rfl
      | none => rfl

/-- Both make the same argument of a value, or raise the same exception. -/
theorem construct_argDef (argDef : Argument) (v : ArgValue CookedMiscInfo) :
    ArgClass.construct (.plain argDef.dataType) (.plain v) =
      (argDef.construct v).map fun arg => .plain arg.1 := by
  by_cases h : argDef.dataType.accepts v = true
  · have hcopy : argDef.dataType.construct v = .ok v := DataType.construct_eq h
    have harg : argDef.construct v = .ok ⟨v, h⟩ := dif_pos h
    rw [ArgClass.construct, hcopy, harg]
    rfl
  · have hfail := DataType.construct_eq_error argDef (by simpa using h)
    rw [ArgClass.construct, hfail]
    cases argDef.construct v <;> rfl

/-- The loop for a class that `RequestClasses` covers does what `initArgs` does. -/
theorem initFrom_argDef (args : List (ArgValue CookedMiscInfo))
    (kwargs : Dict String (ArgValue CookedMiscInfo)) (i : ℕ) (start : RequestInstance Instance)
    (ARGS : List Argument) (hnodup : (ARGS.map Argument.name).Nodup)
    (hnew : ∀ argDef ∈ ARGS, ¬ start.hasattr argDef.name) :
    (initFrom ArgClass.construct Instance.toString (args.map .plain) (kwargs.mapValues .plain) i
        start (ARGS.map Argument.argDef)).map RequestInstance.serializedArgs =
      (initArgs kwargs ARGS (args.drop i)).map fun typed =>
        start.serializedArgs ++ typed.1.map ArgValue.toString := by
  induction ARGS generalizing i start with
  | nil => simp [initFrom, initArgs, Except.map]
  | cons argDef ARGS ih =>
    rw [List.map_cons, List.nodup_cons] at hnodup
    have hfirst : ¬ start.hasattr argDef.argDef.name := hnew argDef List.mem_cons_self
    rw [List.map_cons, initFrom, val_argDef, initArgs_cons]
    cases val args kwargs i ⟨argDef.name, argDef.dataType, argDef.default⟩ with
    | error e => rfl
    | ok v =>
      simp only [Except.map, bind, Except.bind, if_neg hfirst]
      rw [show argDef.argDef.dataType = .plain argDef.dataType from rfl, construct_argDef]
      cases argDef.construct v with
      | error e => rfl
      | ok arg =>
        have hnew' : ∀ other ∈ ARGS,
            ¬ (start.setArg argDef.name (.plain arg.1) arg.1.toString).hasattr other.name := by
          intro other hother
          refine not_hasattr_setArg (fun h => hnodup.1 ?_) _ _
            (hnew other (List.mem_cons_of_mem _ hother))
          exact h ▸ List.mem_map_of_mem hother
        have htail := ih (i + 1) _ hnodup.2 hnew'
        simp only [Except.map, Instance.toString] at htail ⊢
        rw [show argDef.argDef.name = argDef.name from rfl, htail]
        cases initArgs kwargs ARGS (args.drop (i + 1)) with
        | error e => rfl
        | ok rest => simp [pure, Except.pure, setArg]

/-- A request of such a class sends what `TypedRequest` says. -/
theorem init_classDef {cls : RequestClass} (hcls : cls ∈ requestClasses)
    (args : List (ArgValue CookedMiscInfo)) (kwargs : Dict String (ArgValue CookedMiscInfo)) :
    (cls.classDef.init (args.map .plain) (kwargs.mapValues .plain)).map
        RequestInstance.serializedArgs =
      (TypedRequest.init cls hcls args kwargs).map fun self => self.request.serializedArgs := by
  obtain ⟨hnodup, hnew, -⟩ := names_of_mem
    (List.mem_append_left _ (List.mem_map_of_mem (f := RequestClass.classDef) hcls))
  have hnames : cls.classDef.args.map ArgDef.name = cls.args.map Argument.name := by
    simp [RequestClass.classDef, Argument.argDef, Function.comp_def]
  have hkwargs : (kwargs.mapValues Value.plain).items.length = kwargs.items.length :=
    List.length_map ..
  have hself : "self" ∈ kwargs.mapValues Value.plain ↔ "self" ∈ kwargs := Dict.mem_mapValues
  simp only [ClassDef.init, RequestInstance.init, TypedRequest.init, List.length_map, hkwargs,
    hself, show cls.classDef.args.length = cls.args.length from List.length_map ..]
  split_ifs
  · rfl
  · rfl
  · have hloop := initFrom_argDef args kwargs 0 ⟨requestAttributes, ∅, [], []⟩ cls.args
      (hnames ▸ hnodup) (fun argDef h => by
        simpa [hasattr, Argument.argDef] using hnew argDef.argDef (List.mem_map_of_mem h))
    rw [RequestClass.classDef, hloop, List.drop_zero]
    cases initArgs kwargs cls.args args with
    | error e => rfl
    | ok typed => rfl

end Pylyskom
