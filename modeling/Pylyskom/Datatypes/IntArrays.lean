import Mathlib.Data.List.InsertIdx
import Pylyskom.RequestClasses.Constructors

/-!
# Arrays of integers as lists

`Array` is a list that makes its elements instances of its element class. It does so in
the methods that it overrides; `+=` is the one of `list`.
-/

namespace Pylyskom

/-! ## Python's lists -/

namespace PyList

variable {α β : Type}

/-- The position that a negative index counts from the end. -/
def position (l : List α) (i : ℤ) : ℤ := if i < 0 then i + l.length else i

/-- `list.insert(l, i, x)` -/
def insert (l : List α) (i : ℤ) (x : α) : List α :=
  l.insertIdx (min (position l i).toNat l.length) x

/-- `list.__setitem__(l, i, y)`; `none` is the `IndexError` for a position outside the list. -/
def setItem (l : List α) (i : ℤ) (y : α) : Option (List α) :=
  if 0 ≤ position l i ∧ position l i < l.length then some (l.set (position l i).toNat y)
  else none

theorem position_map (f : α → β) (l : List α) (i : ℤ) : position (l.map f) i = position l i := by
  rw [position, position, List.length_map]

theorem map_insert (f : α → β) (l : List α) (i : ℤ) (x : α) :
    (insert l i x).map f = insert (l.map f) i (f x) := by
  rw [insert, insert, position_map, List.length_map, List.map_insertIdx]

theorem map_setItem (f : α → β) (l : List α) (i : ℤ) (y : α) :
    (setItem l i y).map (List.map f) = setItem (l.map f) i (f y) := by
  rw [setItem, setItem, position_map, List.length_map]
  split
  · rw [Option.map_some, List.map_set]
  · rfl

theorem mem_insert {l : List α} {i : ℤ} {x a : α} : a ∈ insert l i x ↔ a = x ∨ a ∈ l :=
  List.mem_insertIdx (Nat.min_le_right _ _)

theorem mem_of_mem_setItem {l l' : List α} {i : ℤ} {y a : α} (h : setItem l i y = some l')
    (ha : a ∈ l') : a = y ∨ a ∈ l := by
  rw [setItem] at h
  split at h
  · obtain rfl := Option.some.inj h
    exact (List.mem_or_eq_of_mem_set ha).symm
  · cases h

end PyList

/-! ## Integers with their classes -/

/-- The classes of integers. -/
inductive IntClass : Type
  | Int | Bool | Int8 | Int16 | Int32 | AuxNo | ConfNo | PersNo | TextNo | LocalTextNo
  | SessionNo | GarbNice | InfoType
  deriving DecidableEq, Repr

/-- A class and those that it inherits from. -/
def IntClass.mro : IntClass → List IntClass
  | Int => [Int]
  | Bool => [Bool, Int]
  | Int8 => [Int8, Int]
  | Int16 => [Int16, Int]
  | Int32 => [Int32, Int]
  | AuxNo => [AuxNo, Int32, Int]
  | ConfNo => [ConfNo, Int16, Int]
  | PersNo => [PersNo, ConfNo, Int16, Int]
  | TextNo => [TextNo, Int32, Int]
  | LocalTextNo => [LocalTextNo, Int32, Int]
  | SessionNo => [SessionNo, Int32, Int]
  | GarbNice => [GarbNice, Int32, Int]
  | InfoType => [InfoType, Int32, Int]

/-- An integer of one of the classes, or of Python's `int`. -/
structure PyInt where
  cls : Option IntClass
  value : ℕ
  deriving DecidableEq, Repr

/-- A plain `int`. -/
def PyInt.plain (value : ℕ) : PyInt := ⟨none, value⟩

/-- `isinstance(self, cls)` -/
def PyInt.isInstance (self : PyInt) (cls : IntClass) : Prop := ∃ c ∈ self.cls, cls ∈ c.mro

instance (self : PyInt) (cls : IntClass) : Decidable (self.isInstance cls) :=
  match h : self.cls with
  | none => isFalse fun ⟨_, hc, _⟩ => by rw [h] at hc; cases hc
  | some c => decidable_of_iff (cls ∈ c.mro) (by simp [PyInt.isInstance, h])

/-- `cls(v)` -/
def IntClass.construct (cls : IntClass) (v : PyInt) : PyInt := ⟨some cls, v.value⟩

/-! ## Arrays -/

namespace IntArray

/-- `x` itself, or what the element class makes of it. -/
def element (ELEMENT_CLASS : IntClass) (x : PyInt) : PyInt :=
  if x.isInstance ELEMENT_CLASS then x else ELEMENT_CLASS.construct x

/-- `Array.__init__` -/
def init (ELEMENT_CLASS : IntClass) (iterable : List PyInt) : List PyInt :=
  Array.init ELEMENT_CLASS.construct iterable

def setItem (ELEMENT_CLASS : IntClass) (self : List PyInt) (i : ℤ) (y : PyInt) :
    Option (List PyInt) :=
  PyList.setItem self i (element ELEMENT_CLASS y)

def append (ELEMENT_CLASS : IntClass) (self : List PyInt) (x : PyInt) : List PyInt :=
  self ++ [element ELEMENT_CLASS x]

def insert (ELEMENT_CLASS : IntClass) (self : List PyInt) (i : ℤ) (x : PyInt) : List PyInt :=
  PyList.insert self i (element ELEMENT_CLASS x)

def extend (ELEMENT_CLASS : IntClass) (self l : List PyInt) : List PyInt :=
  self ++ init ELEMENT_CLASS l

def add (ELEMENT_CLASS : IntClass) (self other : List PyInt) : List PyInt :=
  init ELEMENT_CLASS (self ++ other)

/-- `list.__iadd__`, which `Array` inherits. -/
def iadd (self other : List PyInt) : List PyInt := self ++ other

/-- `Array.to_string`, which first validates the elements. -/
def toString (ELEMENT_CLASS : IntClass) (self : List PyInt) : Except Exn Bytes :=
  if ∀ v ∈ self, v.isInstance ELEMENT_CLASS then
    .ok (Array.toString (fun x => Int.toString x.value) self)
  else .error (.builtinError .valueError)

end IntArray

/-- The operations on a list, with plain integers and lists of them. -/
inductive ListOp : Type
  | construct (iterable : List ℕ)
  | append (x : ℕ)
  | insert (i : ℤ) (x : ℕ)
  | extend (l : List ℕ)
  | setItem (i : ℤ) (y : ℕ)
  | add (other : List ℕ)
  | iadd (other : List ℕ)
  deriving DecidableEq, Repr

namespace ListOp

/-- An operation on a plain list. -/
def onList (l : List ℕ) : ListOp → Option (List ℕ)
  | construct iterable => some iterable
  | append x => some (l ++ [x])
  | insert i x => some (PyList.insert l i x)
  | extend other => some (l ++ other)
  | setItem i y => PyList.setItem l i y
  | add other => some (l ++ other)
  | iadd other => some (l ++ other)

/-- The same operation on an array. -/
def onArray (ELEMENT_CLASS : IntClass) (self : List PyInt) : ListOp → Option (List PyInt)
  | construct iterable => some (IntArray.init ELEMENT_CLASS (iterable.map .plain))
  | append x => some (IntArray.append ELEMENT_CLASS self (.plain x))
  | insert i x => some (IntArray.insert ELEMENT_CLASS self i (.plain x))
  | extend l => some (IntArray.extend ELEMENT_CLASS self (l.map .plain))
  | setItem i y => IntArray.setItem ELEMENT_CLASS self i (.plain y)
  | add other => some (IntArray.add ELEMENT_CLASS self (other.map .plain))
  | iadd other => some (IntArray.iadd self (other.map .plain))

/-- What is left when operations are done one after the other; one that raises an exception
changes nothing. -/
def runList (l : List ℕ) (ops : List ListOp) : List ℕ :=
  ops.foldl (fun l op => (op.onList l).getD l) l

def runArray (ELEMENT_CLASS : IntClass) (self : List PyInt) (ops : List ListOp) : List PyInt :=
  ops.foldl (fun self op => (op.onArray ELEMENT_CLASS self).getD self) self

/-- `+=` with elements. -/
def AddsPlain : ListOp → Prop
  | iadd other => other ≠ []
  | _ => False

end ListOp

/-- Every element is an instance, and the array is serialized as the list of its values. -/
structure KeepsElements (ELEMENT_CLASS : IntClass) (array : List PyInt) (l : List ℕ) : Prop where
  instances : ∀ v ∈ array, v.isInstance ELEMENT_CLASS
  serialized : IntArray.toString ELEMENT_CLASS array = .ok (Array.toString Int.toString l)

/-! ## One operation -/

theorem IntClass.mem_mro (cls : IntClass) : cls ∈ cls.mro := by
  cases cls <;> exact List.mem_cons_self

theorem IntClass.isInstance_construct (cls : IntClass) (v : PyInt) :
    (cls.construct v).isInstance cls := ⟨cls, rfl, cls.mem_mro⟩

theorem PyInt.not_isInstance_plain (value : ℕ) (cls : IntClass) :
    ¬ (PyInt.plain value).isInstance cls := by
  rintro ⟨c, hc, -⟩
  cases hc

namespace IntArray

variable {cls : IntClass}

theorem isInstance_element (x : PyInt) : (element cls x).isInstance cls := by
  rw [element]
  split
  · next h => exact h
  · exact cls.isInstance_construct x

theorem isInstance_of_mem_init {iterable : List PyInt} {v : PyInt} (h : v ∈ init cls iterable) :
    v.isInstance cls := by
  obtain ⟨x, -, rfl⟩ := List.mem_map.mp h
  exact cls.isInstance_construct x

theorem value_element (x : PyInt) : (element cls x).value = x.value := by
  rw [element]
  split <;> rfl

theorem map_value_init (iterable : List PyInt) :
    (init cls iterable).map PyInt.value = iterable.map PyInt.value := by
  rw [init, Array.init, List.map_map]
  rfl

theorem value_comp_plain : PyInt.value ∘ PyInt.plain = id := rfl

theorem map_value_plain (l : List ℕ) : (l.map PyInt.plain).map PyInt.value = l := by
  rw [List.map_map, value_comp_plain, List.map_id]

end IntArray

open IntArray

variable {cls : IntClass}

/-- The values of an array are those of the list, whatever the operations. -/
theorem ListOp.value_onArray (cls : IntClass) (op : ListOp) (self : List PyInt) :
    (op.onArray cls self).map (List.map PyInt.value) = op.onList (self.map PyInt.value) := by
  cases op with
  | construct iterable => simp [onArray, onList, map_value_init, value_comp_plain]
  | append x => simp [onArray, onList, IntArray.append, value_element, PyInt.plain]
  | insert i x =>
    simp [onArray, onList, IntArray.insert, PyList.map_insert, value_element, PyInt.plain]
  | extend l =>
    simp [onArray, onList, IntArray.extend, map_value_init, value_comp_plain]
  | setItem i y =>
    simp [onArray, onList, IntArray.setItem, PyList.map_setItem, value_element, PyInt.plain]
  | add other =>
    simp [onArray, onList, IntArray.add, map_value_init, value_comp_plain]
  | iadd other => simp [onArray, onList, IntArray.iadd, value_comp_plain]

/-- An operation other than `+=` keeps the elements in their class. -/
theorem ListOp.instances_onArray {op : ListOp} {self self' : List PyInt} (hop : ¬ op.AddsPlain)
    (h : ∀ v ∈ self, v.isInstance cls) (hstep : op.onArray cls self = some self') :
    ∀ v ∈ self', v.isInstance cls := by
  intro v hv
  cases op with
  | construct iterable =>
    obtain rfl := Option.some.inj hstep
    exact isInstance_of_mem_init hv
  | append x =>
    obtain rfl := Option.some.inj hstep
    rcases List.mem_append.mp hv with hv | hv
    · exact h v hv
    · rw [List.mem_singleton.mp hv]
      exact isInstance_element _
  | insert i x =>
    obtain rfl := Option.some.inj hstep
    rcases PyList.mem_insert.mp hv with rfl | hv
    · exact isInstance_element _
    · exact h v hv
  | extend l =>
    obtain rfl := Option.some.inj hstep
    rcases List.mem_append.mp hv with hv | hv
    · exact h v hv
    · exact isInstance_of_mem_init hv
  | setItem i y =>
    rcases PyList.mem_of_mem_setItem hstep hv with rfl | hv
    · exact isInstance_element _
    · exact h v hv
  | add other =>
    obtain rfl := Option.some.inj hstep
    exact isInstance_of_mem_init hv
  | iadd other =>
    obtain rfl := Option.some.inj hstep
    rw [of_not_not hop] at hv
    exact h v (by simpa [IntArray.iadd] using hv)

/-- And `+=` with elements does not. -/
theorem ListOp.not_instances_onArray (cls : IntClass) {op : ListOp} (self : List PyInt)
    (hop : op.AddsPlain) :
    ∃ v ∈ (op.onArray cls self).getD self, ¬ v.isInstance cls := by
  cases op with
  | iadd other =>
    obtain ⟨x, rest, rfl⟩ := List.exists_cons_of_ne_nil hop
    exact ⟨.plain x, List.mem_append_right _ List.mem_cons_self,
      PyInt.not_isInstance_plain x cls⟩
  | _ => cases hop

/-- Instances are serialized by their values. -/
theorem keepsElements_iff {self : List PyInt} {l : List ℕ} (hvalue : self.map PyInt.value = l) :
    KeepsElements cls self l ↔ ∀ v ∈ self, v.isInstance cls := by
  refine ⟨KeepsElements.instances, fun h => ⟨h, ?_⟩⟩
  rw [IntArray.toString, if_pos h, ← hvalue, Array.toString, Array.toString, List.length_map,
    List.map_map]
  rfl

/-! ## Sequences of operations -/

theorem value_runArray (self : List PyInt) (ops : List ListOp) :
    (ListOp.runArray cls self ops).map PyInt.value =
      ListOp.runList (self.map PyInt.value) ops := by
  induction ops generalizing self with
  | nil => rfl
  | cons op ops ih =>
    have hstep : ((op.onArray cls self).getD self).map PyInt.value =
        (op.onList (self.map PyInt.value)).getD (self.map PyInt.value) := by
      rw [← ListOp.value_onArray cls]
      cases op.onArray cls self <;> rfl
    have hrest := ih ((op.onArray cls self).getD self)
    rw [hstep] at hrest
    exact hrest

theorem instances_runArray {self : List PyInt} {ops : List ListOp}
    (hops : ∀ op ∈ ops, ¬ op.AddsPlain) (h : ∀ v ∈ self, v.isInstance cls) :
    ∀ v ∈ ListOp.runArray cls self ops, v.isInstance cls := by
  induction ops generalizing self with
  | nil => exact h
  | cons op ops ih =>
    refine ih (fun o ho => hops o (List.mem_cons_of_mem op ho)) ?_
    change ∀ v ∈ (op.onArray cls self).getD self, v.isInstance cls
    cases hstep : op.onArray cls self with
    | none => exact h
    | some self' => exact ListOp.instances_onArray (hops op List.mem_cons_self) h hstep

/-- In a sequence of operations on an array all its elements stay in the element class, and it
is serialized as the plain list is, if and only if none of them is a `+=` with elements. -/
theorem keepsElements_run_iff (cls : IntClass) (initial : List ℕ) (ops : List ListOp) :
    (∀ before, before <+: ops →
        KeepsElements cls (ListOp.runArray cls (IntArray.init cls (initial.map .plain)) before)
          (ListOp.runList initial before)) ↔
      ∀ op ∈ ops, ¬ op.AddsPlain := by
  have hvalue (before : List ListOp) :
      (ListOp.runArray cls (IntArray.init cls (initial.map .plain)) before).map PyInt.value =
        ListOp.runList initial before := by
    rw [value_runArray, map_value_init, map_value_plain]
  constructor
  · intro h op hop hadds
    obtain ⟨before, after, rfl⟩ := List.append_of_mem hop
    have hkeeps := h (before ++ [op]) ⟨after, by simp⟩
    obtain ⟨v, hv, hnot⟩ := ListOp.not_instances_onArray cls
      (ListOp.runArray cls (IntArray.init cls (initial.map .plain)) before) hadds
    refine hnot (hkeeps.instances v ?_)
    rwa [ListOp.runArray, List.foldl_append]
  · intro h before hbefore
    rw [keepsElements_iff (hvalue before)]
    exact instances_runArray (fun op hop => h op (hbefore.subset hop))
      fun v hv => isInstance_of_mem_init hv

/-- `a = ArrayInt32([1]); a += [2]` leaves an array that `to_string` rejects. -/
theorem not_keepsElements_iadd :
    ¬ KeepsElements .Int32 (ListOp.runArray .Int32 (IntArray.init .Int32 ([1].map .plain))
        [.iadd [2]]) (ListOp.runList [1] [.iadd [2]]) ∧
      IntArray.toString .Int32 (ListOp.runArray .Int32
        (IntArray.init .Int32 ([1].map .plain)) [.iadd [2]]) =
          .error (.builtinError .valueError) := by
  refine ⟨fun h => ?_, rfl⟩
  have hserialized := h.serialized
  cases hserialized

end Pylyskom
