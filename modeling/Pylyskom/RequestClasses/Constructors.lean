import Pylyskom.RequestClasses

/-!
# Constructors of data types

`Request.__init__` passes every argument through the constructor of its data type, also an
argument that is an instance of the data type already. Most constructors copy such an
instance. Those of `Time` and `ReadRange` put it in their first field.
-/

namespace Pylyskom

/-! ## Arguments that are instances -/

/-- What a caller passes as an argument: an instance of a data type, or for an array a list
of instances of its element class. -/
inductive Value : Type
  | plain (val : ArgValue CookedMiscInfo)
  | time (self : Time)
  | readRanges (ranges : List ReadRange)

def Time.toString (self : Time) : Bytes :=
  (ascii " ").intercalate [decimal self.seconds, decimal self.minutes, decimal self.hours,
    decimal self.day, decimal self.month, decimal self.year, decimal self.dayOfWeek,
    decimal self.dayOfYear, decimal self.isDst]

def ReadRange.toString (self : ReadRange) : Bytes :=
  decimal self.firstRead ++ ascii " " ++ decimal self.lastRead

/-- The value's own `to_string`; for a list, its length and the elements in array form. -/
def Value.toString : Value → Bytes
  | plain val => val.toString
  | time self => self.toString
  | readRanges ranges => Array.toString ReadRange.toString ranges

/-- The data types of all arguments in `requests.py`. -/
inductive ArgClass : Type
  | plain (dataType : DataType)
  | timeClass
  | arrayReadRange
  deriving DecidableEq, Repr

/-- The values that are instances of a data type. -/
def ArgClass.accepts : ArgClass → Value → Bool
  | plain dataType, .plain val => dataType.accepts val
  | timeClass, .time _ => true
  | arrayReadRange, .readRanges _ => true
  | _, _ => false

/-! ## All request classes -/

/-- An `Argument`, over any data types and values. -/
structure ArgDef (D V : Type) where
  name : String
  dataType : D
  default : Option V

/-- A subclass of `Request`, over all data types. -/
structure ClassDef where
  callNo : ℕ
  args : List (ArgDef ArgClass Value)

def Argument.argDef (self : Argument) : ArgDef ArgClass Value where
  name := self.name
  dataType := .plain self.dataType
  default := self.default.map .plain

def RequestClass.classDef (self : RequestClass) : ClassDef where
  callNo := self.callNo
  args := self.args.map Argument.argDef

def ReqGetLastText : ClassDef := ⟨Requests.GET_LAST_TEXT, [⟨"before", .timeClass, none⟩]⟩
def ReqSetReadRanges : ClassDef :=
  ⟨Requests.SET_READ_RANGES, [⟨"conference", .plain .confNo, none⟩,
    ⟨"read_ranges", .arrayReadRange, none⟩]⟩

/-- Every class of `requests.py`. -/
def allRequestClasses : List ClassDef :=
  requestClasses.map RequestClass.classDef ++ [ReqGetLastText, ReqSetReadRanges]

/-- What `hasattr` finds on a request before the arguments are set: its own attributes, those
of its class and those of `object`. -/
def requestAttributes : List String :=
  ["args", "_serialized_args", "CALL_NO", "ARGS", "to_string", "__init__", "__repr__",
   "__annotations__", "__module__", "__dict__", "__weakref__", "__doc__", "__class__",
   "__delattr__", "__dir__", "__eq__", "__format__", "__ge__", "__getattribute__",
   "__getstate__", "__gt__", "__hash__", "__init_subclass__", "__le__", "__lt__", "__ne__",
   "__new__", "__reduce__", "__reduce_ex__", "__setattr__", "__sizeof__", "__str__",
   "__subclasshook__"]

/-- The names of the arguments are distinct, may be set and may be keywords. -/
theorem names_of_mem {cls : ClassDef} (h : cls ∈ allRequestClasses) :
    (cls.args.map ArgDef.name).Nodup ∧ (∀ argDef ∈ cls.args, argDef.name ∉ requestAttributes) ∧
      "self" ∉ cls.args.map ArgDef.name := by
  have hall : ∀ cls ∈ allRequestClasses, (cls.args.map ArgDef.name).Nodup ∧
      (∀ argDef ∈ cls.args, argDef.name ∉ requestAttributes) ∧
      "self" ∉ cls.args.map ArgDef.name := by
    decide +kernel
  exact hall cls h

/-! ## What the constructors make of instances -/

/-- `int(v)`, for `Int` and its subclasses. -/
def Int.init (v : ℕ) : ℕ := v

/-- `bytes.__new__(cls, s)`. -/
def String.init (s : Bytes) : Bytes := s

/-- `Bitstring.__init__`, with the `LENGTH` of the subclass. -/
def Bitstring.init (LENGTH : ℕ) (iterable : List Bool) : Except Exn (List Bool) :=
  if iterable.length ≠ LENGTH then .error (.builtinError .valueError) else .ok iterable

/-- `Array.__init__`, given the constructor of the element class. -/
def Array.init {α β : Type} (elementClass : α → β) (iterable : List α) : List β :=
  iterable.map elementClass

def AuxItemInput.init (auxItem : AuxItemInput) : AuxItemInput where
  tag := auxItem.tag
  flags := auxItem.flags
  inheritLimit := auxItem.inheritLimit
  data := auxItem.data

def CookedMiscInfo.init (other : CookedMiscInfo) : CookedMiscInfo where
  recipientList := other.recipientList
  commentToList := other.commentToList
  commentInList := other.commentInList

def InfoOld.init (infoOld : InfoOld) : InfoOld where
  version := infoOld.version
  confPresConf := infoOld.confPresConf
  persPresConf := infoOld.persPresConf
  motdConf := infoOld.motdConf
  komNewsConf := infoOld.komNewsConf
  motdOfLyskom := infoOld.motdOfLyskom

/-- What the constructors of `Time` and `ReadRange` find in their first argument. -/
inductive Field : Type
  | int (n : ℕ)
  | time (self : Time)
  | readRange (self : ReadRange)

/-- `b"%d" % field` -/
def Field.format : Field → Except Exn Bytes
  | int n => .ok (decimal n)
  | time _ | readRange _ => .error (.builtinError .typeError)

/-- A `Time` whose `seconds` may be anything. -/
structure TimeObject where
  seconds : Field
  minutes : ℕ
  hours : ℕ
  day : ℕ
  month : ℕ
  year : ℕ
  dayOfWeek : ℕ
  dayOfYear : ℕ
  isDst : ℕ

/-- `Time.__init__` with one positional argument. -/
def Time.init (seconds : Field) : TimeObject where
  seconds
  minutes := 0
  hours := 0
  day := 0
  month := 0
  year := 0
  dayOfWeek := 0
  dayOfYear := 0
  isDst := 0

def TimeObject.toString (self : TimeObject) : Except Exn Bytes := do
  let seconds ← self.seconds.format
  return (ascii " ").intercalate [seconds, decimal self.minutes, decimal self.hours,
    decimal self.day, decimal self.month, decimal self.year, decimal self.dayOfWeek,
    decimal self.dayOfYear, decimal self.isDst]

/-- A `ReadRange` whose `first_read` may be anything. -/
structure ReadRangeObject where
  firstRead : Field
  lastRead : ℕ

/-- `ReadRange.__init__` with one positional argument. -/
def ReadRange.init (firstRead : Field) : ReadRangeObject where
  firstRead
  lastRead := 0

def ReadRangeObject.toString (self : ReadRangeObject) : Except Exn Bytes := do
  let firstRead ← self.firstRead.format
  return firstRead ++ ascii " " ++ decimal self.lastRead

/-- An argument that was made by the constructor of its data type. -/
inductive Instance : Type
  | plain (val : ArgValue CookedMiscInfo)
  | time (self : TimeObject)
  | arrayReadRange (self : List ReadRangeObject)

/-- `to_string` of an argument. An array puts the elements together in the array form. -/
def Instance.toString : Instance → Except Exn Bytes
  | plain val => .ok val.toString
  | time self => self.toString
  | arrayReadRange self => do
    let elements ← self.mapM ReadRangeObject.toString
    return Array.toString id elements

/-- The constructor of a data type that `RequestClasses` covers. -/
def DataType.construct : DataType → ArgValue CookedMiscInfo →
    Except Exn (ArgValue CookedMiscInfo)
  | bool, .int n | int8, .int n | int16, .int n | int32, .int n | auxNo, .int n
  | confNo, .int n | persNo, .int n | textNo, .int n | localTextNo, .int n
  | sessionNo, .int n | garbNice, .int n | infoType, .int n => .ok (.int (Int.init n))
  | string, .string s => .ok (.string (String.init s))
  | anyConfType, .bitstring bits | personalFlags, .bitstring bits
  | membershipType, .bitstring bits => return .bitstring (← Bitstring.init 8 bits)
  | privBits, .bitstring bits => return .bitstring (← Bitstring.init 16 bits)
  | arrayInt32, .arrayInt ns | arrayLocalTextNo, .arrayInt ns =>
    .ok (.arrayInt (Array.init Int.init ns))
  | arrayAuxItemInput, .arrayAuxItemInput items =>
    .ok (.arrayAuxItemInput (Array.init AuxItemInput.init items))
  | cookedMiscInfo, .miscInfo info => .ok (.miscInfo (CookedMiscInfo.init info))
  | infoOld, .infoOld info => .ok (.infoOld (InfoOld.init info))
  | _, .bitstring _ => .error (.builtinError .valueError) -- wrong length
  | _, _ => .error (.builtinError .typeError)

/-- The constructor of a data type, on an instance of it. -/
def ArgClass.construct : ArgClass → Value → Except Exn Instance
  | plain dataType, .plain val => return .plain (← dataType.construct val)
  | timeClass, .time self => .ok (.time (Time.init (.time self)))
  | arrayReadRange, .readRanges ranges =>
    .ok (.arrayReadRange (Array.init (fun range => ReadRange.init (.readRange range)) ranges))
  | _, _ => .error (.builtinError .typeError)

/-! ## Copies -/

theorem Array.init_of_copy {α : Type} {elementClass : α → α}
    (h : ∀ v, elementClass v = v) (iterable : List α) :
    Array.init elementClass iterable = iterable := by
  rw [init, List.map_congr_left fun v _ => h v, List.map_id']

/-- The other constructors copy the instances of their class. -/
theorem DataType.construct_eq {dataType : DataType} {val : ArgValue CookedMiscInfo}
    (h : dataType.accepts val = true) : dataType.construct val = .ok val := by
  have hints (ns : List ℕ) : Array.init Int.init ns = ns := Array.init_of_copy (fun _ => rfl) ns
  have hitems (items : List AuxItemInput) : Array.init AuxItemInput.init items = items :=
    Array.init_of_copy (fun _ => rfl) items
  cases dataType <;> cases val <;>
    simp_all [DataType.accepts, DataType.construct, Bitstring.init, String.init] <;> rfl

/-- A constructor fails on the values it does not take, as `Argument.construct` does. -/
theorem DataType.construct_eq_error (argDef : Argument) {val : ArgValue CookedMiscInfo}
    (h : argDef.dataType.accepts val = false) :
    argDef.dataType.construct val = (argDef.construct val).map Subtype.val := by
  obtain ⟨name, dataType, default⟩ := argDef
  cases dataType <;> cases val <;>
    simp_all [DataType.accepts, DataType.construct, Bitstring.init, Argument.construct] <;> rfl

/-- The instances that come back unchanged through the constructor: all but a `Time` and a
list with a `ReadRange`. -/
def Value.IsCopied : Value → Prop
  | plain _ => True
  | time _ => False
  | readRanges ranges => ranges = []

instance : DecidablePred Value.IsCopied
  | .plain _ => isTrue trivial
  | .time _ => isFalse id
  | .readRanges ranges => inferInstanceAs (Decidable (ranges = []))

/-- Making an instance again and serializing it. -/
def ArgClass.serialize (dataType : ArgClass) (val : Value) : Except Exn Bytes := do
  let arg ← dataType.construct val
  arg.toString

theorem TimeObject.toString_init (self : Time) :
    (Time.init (.time self)).toString = .error (.builtinError .typeError) := rfl

theorem mapM_toString_readRange (range : ReadRange) (ranges : List ReadRange) :
    (Array.init (fun range => ReadRange.init (.readRange range)) (range :: ranges)).mapM
      ReadRangeObject.toString = .error (.builtinError .typeError) := by
  rw [Array.init, List.map_cons, List.mapM_cons]
  rfl

/-- The copied instances are serialized as what they are, the others fail. -/
theorem ArgClass.serialize_eq {dataType : ArgClass} {val : Value}
    (h : dataType.accepts val = true) :
    dataType.serialize val =
      if val.IsCopied then .ok val.toString else .error (.builtinError .typeError) := by
  cases dataType with
  | plain dataType =>
    cases val with
    | plain val =>
      have hcopy : dataType.construct val = .ok val := DataType.construct_eq h
      rw [if_pos (show Value.IsCopied (.plain val) from trivial), serialize, construct, hcopy]
      rfl
    | time self => cases h
    | readRanges ranges => cases h
  | timeClass =>
    cases val with
    | plain val => cases h
    | time self =>
      rw [if_neg (show ¬ Value.IsCopied (.time self) from id)]
      exact TimeObject.toString_init self
    | readRanges ranges => cases h
  | arrayReadRange =>
    cases val with
    | plain val => cases h
    | time self => cases h
    | readRanges ranges =>
      cases ranges with
      | nil => rw [if_pos (show Value.IsCopied (.readRanges []) from rfl)]; rfl
      | cons range ranges =>
        have hfail := mapM_toString_readRange range ranges
        rw [if_neg (show ¬ Value.IsCopied (.readRanges (range :: ranges)) from
          List.cons_ne_nil _ _)]
        simp only [serialize, construct, bind, Except.bind, Instance.toString] at hfail ⊢
        rw [hfail]

end Pylyskom
