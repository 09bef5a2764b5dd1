import Pylyskom.RequestClasses
import Pylyskom.Connection.Matching

/-!
# The stream of requests

The bytes of a sequence of requests, and a reader that takes them apart with the parsers
of the data types. Each argument is written as tokens that its parser reads, so the
requests are read one after the other, whatever their arguments look like.
-/

namespace Pylyskom

open Spacing

/-! ## Tokens -/

/-- The tokens of an array. -/
def arrayTokens (elements : List (List Bytes)) : List Bytes :=
  decimal elements.length :: ['{'.toUInt8] :: (elements.flatten ++ [['}'.toUInt8]])

def AuxItemInput.tokens (self : AuxItemInput) : List Bytes :=
  [decimal self.tag, Bitstring.toString self.flags.toList, decimal self.inheritLimit,
   toHstring self.data]

def InfoOld.tokens (self : InfoOld) : List Bytes :=
  [decimal self.version, decimal self.confPresConf, decimal self.persPresConf,
   decimal self.motdConf, decimal self.komNewsConf, decimal self.motdOfLyskom]

/-- The tokens of a misc-info item. -/
def tupleTokens (x : ℕ × ℕ) : List Bytes := [decimal x.1, decimal x.2]

def ArgValue.tokens : ArgValue CookedMiscInfo → List Bytes
  | int n => [decimal n]
  | string s => [toHstring s]
  | bitstring bits => [Bitstring.toString bits]
  | arrayInt ns => arrayTokens (ns.map fun n => [decimal n])
  | arrayAuxItemInput items => arrayTokens (items.map AuxItemInput.tokens)
  | miscInfo info => arrayTokens (info.getTuples.map tupleTokens)
  | infoOld info => info.tokens

/-- Elements that are each followed by a space, as `CookedMiscInfo.to_string` writes them. -/
theorem text_arrayTokens {elements : List (List Bytes)} (h : ∀ ts ∈ elements, ts ≠ []) :
    spacing.text (arrayTokens elements) = decimal elements.length ++ ascii " \x7b " ++
      (elements.map fun ts => spacing.text ts ++ ascii " ").flatten ++ ascii "\x7d" := by
  have hrest : spacing.text (elements.flatten ++ [['}'.toUInt8]]) =
      (elements.map fun ts => spacing.text ts ++ ascii " ").flatten ++ ascii "\x7d" := by
    induction elements with
    | nil => rfl
    | cons ts elements ih =>
      have hts : ts ≠ [] := h ts List.mem_cons_self
      rw [List.flatten_cons, List.append_assoc, spacing.text_append hts (by simp),
        ih fun us hus => h us (List.mem_cons_of_mem ts hus), List.map_cons, List.flatten_cons]
      simp [ascii, spacing]
  rw [arrayTokens, spacing.text_cons (by simp), spacing.text_cons (by simp), hrest]
  simp [ascii, spacing]

/-- Joined by spaces and followed by one is each followed by a space. -/
theorem intercalate_append_space {elements : List Bytes} (h : elements ≠ []) :
    (ascii " ").intercalate elements ++ ascii " " =
      (elements.map fun s => s ++ ascii " ").flatten := by
  induction elements with
  | nil => contradiction
  | cons s elements ih =>
    cases elements with
    | nil => simp [List.intercalate]
    | cons s' elements =>
      have hrest := ih (by simp)
      rw [List.map_cons, List.flatten_cons, ← hrest]
      simp [List.intercalate]

/-- `Array.to_string` writes the same tokens. -/
theorem Array.toString_eq {α : Type} {element : α → Bytes} {tokens : α → List Bytes}
    (helement : ∀ a, element a = spacing.text (tokens a)) (hne : ∀ a, tokens a ≠ [])
    (self : List α) :
    Array.toString element self = spacing.text (arrayTokens (self.map tokens)) := by
  have hall : ∀ ts ∈ self.map tokens, ts ≠ [] := by simp [hne]
  rw [text_arrayTokens hall, Array.toString]
  have hmap : (self.map tokens).map (fun ts => spacing.text ts ++ ascii " ") =
      (self.map element).map fun s => s ++ ascii " " := by
    simp [helement]
  rw [hmap]
  by_cases hself : self = []
  · subst hself
    rw [if_neg (by simp), List.map_nil, List.map_nil, List.length_nil]
    decide
  · have hpos : self.length > 0 := List.length_pos_iff.mpr hself
    have hmapped : self.map element ≠ [] := by simpa using hself
    have hspace := intercalate_append_space hmapped
    have hclose : ascii " \x7d" = ascii " " ++ ascii "\x7d" := rfl
    rw [if_pos hpos, ← hspace, hclose, List.length_map]
    simp only [List.append_assoc]

/-- Each `to_string` writes the tokens of the value. -/
theorem ArgValue.toString_eq (val : ArgValue CookedMiscInfo) :
    val.toString = spacing.text val.tokens := by
  cases val with
  | int n => exact (spacing.text_singleton _).symm
  | string s => exact (spacing.text_singleton _).symm
  | bitstring bits => exact (spacing.text_singleton _).symm
  | arrayInt ns =>
    exact Array.toString_eq (fun n => (spacing.text_singleton (decimal n)).symm) (by simp) ns
  | arrayAuxItemInput items =>
    refine Array.toString_eq (fun item => ?_) (fun item => by simp [AuxItemInput.tokens]) items
    rw [AuxItemInput.tokens, AuxItemInput.toString]
    simp [text_cons, ascii, spacing]
  | miscInfo info =>
    have hne : ∀ ts ∈ info.getTuples.map tupleTokens, ts ≠ [] := by
      intro ts hts
      obtain ⟨x, -, rfl⟩ := List.mem_map.mp hts
      exact List.cons_ne_nil _ _
    rw [tokens, text_arrayTokens hne, toString, CookedMiscInfo.toString]
    simp [tupleTokens, text_cons, ascii, spacing, Function.comp_def]
  | infoOld info => rfl

/-! ## The reader -/

/-- An item of a misc-info as its type and its data. -/
def RawMiscInfo.typeAndData : RawMiscInfo → ℕ × (ℕ ⊕ Time)
  | number type data _ => (type, .inl data)
  | time type data _ => (type, .inr data)

/-- A misc-info read item by item. -/
def readTuples : Parser (List (ℕ × (ℕ ⊕ Time))) :=
  List.map RawMiscInfo.typeAndData <$> ArrayRawMiscInfo.parse

/-- Tag, flags, inherit-limit and string in turn. -/
def readAuxItemInput : Parser AuxItemInput := do
  let tag ← Int32.parse
  let flags ← AuxItemFlags.parse
  let inheritLimit ← Int32.parse
  let data ← String.parse
  return { tag, flags, inheritLimit, data }

variable {μ : Type}

/-- The `parse` of a data type, given what reads a misc-info. -/
def DataType.read (readMiscInfo : Parser μ) : DataType → Parser (ArgValue μ)
  | bool => .int <$> Bool.parse
  | int8 => .int <$> Int8.parse
  | int16 => .int <$> Int16.parse
  | int32 => .int <$> Int32.parse
  | auxNo => .int <$> AuxNo.parse
  | confNo => .int <$> ConfNo.parse
  | persNo => .int <$> PersNo.parse
  | textNo => .int <$> TextNo.parse
  | localTextNo => .int <$> LocalTextNo.parse
  | sessionNo => .int <$> SessionNo.parse
  | garbNice => .int <$> GarbNice.parse
  | infoType => .int <$> Int32.parse
  | string => .string <$> String.parse
  | anyConfType => (fun bits => .bitstring bits.toList) <$> ExtendedConfType.parse
  | privBits => (fun bits => .bitstring bits.toList) <$> PrivBits.parse
  | personalFlags => (fun bits => .bitstring bits.toList) <$> PersonalFlags.parse
  | membershipType => (fun bits => .bitstring bits.toList) <$> MembershipType.parse
  | arrayInt32 => .arrayInt <$> ArrayInt32.parse
  | arrayLocalTextNo => .arrayInt <$> ArrayLocalTextNo.parse
  | arrayAuxItemInput => .arrayAuxItemInput <$> Array.parse readAuxItemInput
  | cookedMiscInfo => .miscInfo <$> readMiscInfo
  | infoOld => .infoOld <$> InfoOld.parse

/-- The arguments in the order of `ARGS`. -/
def readArgs (readMiscInfo : Parser μ) : List Argument → Parser (List (ArgValue μ))
  | [] => return []
  | argDef :: ARGS => do
    let arg ← argDef.dataType.read readMiscInfo
    let args ← readArgs readMiscInfo ARGS
    return arg :: args

/-- A request with its ref-no. -/
structure ReadRequest (μ : Type) where
  refNo : ℕ
  callNo : ℕ
  args : List (ArgValue μ)

/-- A request: the ref-no, the call number, and the arguments of its class. -/
def readRequest (readMiscInfo : Parser μ) : Parser (ReadRequest μ) := do
  let refNo ← readInt
  let callNo ← readInt
  match requestClasses.find? fun cls => cls.callNo = callNo with
  | none => Reader.raise (.builtinError (.keyError callNo))
  | some cls => do
    let args ← readArgs readMiscInfo cls.args
    return { refNo, callNo, args }

/-! ## What is read -/

/-- The value that is read for an argument that was sent. -/
def ArgValue.received (f : CookedMiscInfo → μ) : ArgValue CookedMiscInfo → ArgValue μ
  | int n => .int n
  | string s => .string s
  | bitstring bits => .bitstring bits
  | arrayInt ns => .arrayInt ns
  | arrayAuxItemInput items => .arrayAuxItemInput items
  | miscInfo info => .miscInfo (f info)
  | infoOld info => .infoOld info

/-- The request that is read for a request that was sent under a ref-no. -/
def TypedRequest.received (f : CookedMiscInfo → μ) (refNo : ℕ) (self : TypedRequest) :
    ReadRequest μ where
  refNo
  callNo := self.cls.callNo
  args := self.args.1.map (ArgValue.received f)

/-- A misc-info of recipients and comment links, each of one of the types for it. -/
def CookedMiscInfo.Sendable (self : CookedMiscInfo) : Prop :=
  (∀ r ∈ self.recipientList, r.type ∈ [MI_RECPT, MI_CC_RECPT, MI_BCC_RECPT]) ∧
    ∀ ct ∈ self.commentToList, ct.type ∈ [MI_COMM_TO, MI_FOOTN_TO]

/-- Every misc-info among the arguments can be sent. -/
def TypedRequest.Sendable (self : TypedRequest) : Prop :=
  ∀ info, ArgValue.miscInfo info ∈ self.args.1 → info.Sendable

/-- The comment links and then the recipients, and nothing for the other links. -/
def CookedMiscInfo.sentTuples (self : CookedMiscInfo) : List (ℕ × (ℕ ⊕ Time)) :=
  (self.commentToList.map fun ct => (ct.type, .inl ct.textNo)) ++
    self.recipientList.map fun r => (r.type, .inl r.recpt)

/-- The misc-info without what cannot be sent to the server. -/
def CookedMiscInfo.sent (self : CookedMiscInfo) : CookedMiscInfo where
  recipientList := self.recipientList.map fun r => { type := r.type, recpt := r.recpt }
  commentToList := self.commentToList.map fun ct => { type := ct.type, textNo := ct.textNo }

/-! ## Each argument is read from its tokens -/

def AuxItemInput.text (obj : AuxItemInput) : TextForm :=
  [Int.text obj.tag, Bitstring.text obj.flags, Int.text obj.inheritLimit,
   String.text obj.data].prod

def InfoOld.text (obj : InfoOld) : TextForm :=
  [Int.text obj.version, Int.text obj.confPresConf, Int.text obj.persPresConf,
   Int.text obj.motdConf, Int.text obj.komNewsConf, Int.text obj.motdOfLyskom].prod

def tupleText (x : ℕ × ℕ) : TextForm := Int.text x.1 * Int.text x.2

def ArgValue.text : ArgValue CookedMiscInfo → TextForm
  | int n => Int.text n
  | string s => String.text s
  | bitstring bits => token (Bitstring.toString bits)
  | arrayInt ns => Array.text Int.text ns
  | arrayAuxItemInput items => Array.text AuxItemInput.text items
  | miscInfo info => Array.text tupleText info.getTuples
  | infoOld info => info.text

theorem arrayTokens_mem {α : Type} {text : α → TextForm} {tokens : α → List Bytes}
    (h : ∀ a, tokens a ∈ text a) (obj : List α) :
    arrayTokens (obj.map tokens) ∈ Array.text text obj := by
  have hflatten : (obj.map tokens).flatten ∈ (obj.map text).prod := by
    induction obj with
    | nil => exact Language.nil_mem_one
    | cons a obj ih => exact Language.append_mem_mul (h a) ih
  have htokens : arrayTokens (obj.map tokens) = [decimal obj.length] ++ ([['{'.toUInt8]] ++
      ((obj.map tokens).flatten ++ [['}'.toUInt8]])) := by
    simp [arrayTokens]
  rw [htokens]
  refine Or.inl (Language.append_mem_mul ?_ (Language.append_mem_mul ?_
    (Language.append_mem_mul hflatten ?_)))
  · exact Set.mem_singleton _
  · exact Set.mem_singleton _
  · exact Set.mem_singleton _

/-- The tokens of an argument are in its text form. -/
theorem ArgValue.tokens_mem (val : ArgValue CookedMiscInfo) : val.tokens ∈ val.text := by
  cases val with
  | int n => exact Set.mem_singleton _
  | string s => exact Set.mem_singleton _
  | bitstring bits => exact Set.mem_singleton _
  | arrayInt ns =>
    have hint : ∀ n, [decimal n] ∈ Int.text n := fun n => Set.mem_singleton _
    exact arrayTokens_mem hint ns
  | arrayAuxItemInput items =>
    have hitem : ∀ item : AuxItemInput, item.tokens ∈ item.text := fun item =>
      mem_prod_token item.tokens
    exact arrayTokens_mem hitem items
  | miscInfo info =>
    have htuple : ∀ x, tupleTokens x ∈ tupleText x := fun x =>
      Language.append_mem_mul (Set.mem_singleton [decimal x.1]) (Set.mem_singleton [decimal x.2])
    exact arrayTokens_mem htuple info.getTuples
  | infoOld info => exact mem_prod_token info.tokens

theorem readAuxItemInput_reads (obj : AuxItemInput) :
    spacing.Reads readAuxItemInput obj (AuxItemInput.text obj) false := by
  simp only [AuxItemInput.text, List.prod_cons, List.prod_nil]
  refine (Int.reads _).bind <| (Bitstring.reads (by omega) _).bind <| (Int.reads _).bind ?_
  exact (String.reads _).prod_one.bind_pure

theorem InfoOld.reads (obj : InfoOld) :
    spacing.Reads InfoOld.parse obj (InfoOld.text obj) true := by
  simp only [InfoOld.text, List.prod_cons, List.prod_nil]
  refine (Int.reads _).bind <| (Int.reads _).bind <| (Int.reads _).bind <| (Int.reads _).bind <|
    (Int.reads _).bind ?_
  exact (Int.reads _).prod_one.bind_pure

/-- A bit string that was given as a list. -/
theorem bitstring_reads {bits : List Bool} {length : ℕ} (hlength : 0 < length)
    (h : bits.length = length) :
    spacing.Reads ((fun bits => ArgValue.bitstring (μ := μ) bits.toList) <$> Bitstring.parse length)
      (.bitstring bits) (token (Bitstring.toString bits)) true :=
  (Bitstring.reads hlength ⟨bits, h⟩).map

namespace CookedMiscInfo

variable {info : CookedMiscInfo}

/-- The groups that are sent. -/
def Sendable.groups (h : info.Sendable) : List MiscGroup :=
  (info.commentToList.attach.map fun ct =>
    .commentTo { type := ct.1.type, textNo := ct.1.textNo } (h.2 ct.1 ct.2)) ++
  info.recipientList.attach.map fun r =>
    .recipient { type := r.1.type, recpt := r.1.recpt } (h.1 r.1 r.2)

/-- The items that are sent: the first one of each group, which has no others. -/
def Sendable.items (h : info.Sendable) : List RawMiscInfo := h.groups.map MiscGroup.head

theorem getTuples_eq (info : CookedMiscInfo) :
    info.getTuples = (info.commentToList.map fun ct => (ct.type, ct.textNo)) ++
      info.recipientList.map fun r => (r.type, r.recpt) := by
  have hnone : info.commentInList.flatMap MICommentIn.getTuples = [] :=
    List.flatMap_eq_nil_iff.mpr fun _ _ => rfl
  rw [getTuples, hnone, List.append_nil]
  exact congrArg₂ _ (List.map_eq_flatMap).symm (List.map_eq_flatMap).symm

theorem Sendable.text_items (h : info.Sendable) :
    Array.text RawMiscInfo.text h.items = Array.text tupleText info.getTuples := by
  have hmap : h.items.map RawMiscInfo.text = info.getTuples.map tupleText := by
    rw [getTuples_eq, items, groups]
    simp only [List.map_append, List.map_map]
    refine congrArg₂ _ ?_ ?_
    · exact List.attach_map_val (l := info.commentToList)
        (f := fun ct => tupleText (ct.type, ct.textNo))
    · exact List.attach_map_val (l := info.recipientList)
        (f := fun r => tupleText (r.type, r.recpt))
  have hlen : h.items.length = info.getTuples.length := by
    simpa using congrArg List.length hmap
  rw [Array.text, Array.text, hmap, hlen]

theorem Sendable.ofGroups_groups (h : info.Sendable) : ofGroups h.groups = info.sent := by
  unfold groups ofGroups sent
  simp [List.filterMap_append, List.filterMap_map, Function.comp_def, MiscGroup.recipient?,
    MiscGroup.commentTo?, MiscGroup.commentIn?]

theorem Sendable.additional_groups (h : info.Sendable) : ∀ g ∈ h.groups, g.additional = [] := by
  intro g hg
  rcases List.mem_append.mp hg with hg | hg
  · obtain ⟨ct, -, rfl⟩ := List.mem_map.mp hg
    rfl
  · obtain ⟨r, -, rfl⟩ := List.mem_map.mp hg
    rfl

/-- Groups without further items are written as their first items. -/
theorem head_mem_items {groups : List MiscGroup} (h : ∀ g ∈ groups, g.additional = []) :
    groups.map MiscGroup.head ∈ (groups.map MiscGroup.items).prod := by
  induction groups with
  | nil => exact Language.nil_mem_one
  | cons g groups ih =>
    have hg : [g.head] ∈ g.items := ⟨[], by rw [h g List.mem_cons_self], rfl⟩
    exact Language.append_mem_mul hg (ih fun x hx => h x (List.mem_cons_of_mem g hx))

theorem Sendable.items_mem (h : info.Sendable) : h.items ∈ info.sent.items :=
  ⟨h.groups, h.ofGroups_groups, head_mem_items h.additional_groups⟩

theorem Sendable.typeAndData_items (h : info.Sendable) :
    h.items.map RawMiscInfo.typeAndData = info.sentTuples := by
  rw [items, groups, sentTuples]
  simp only [List.map_append, List.map_map]
  refine congrArg₂ _ ?_ ?_
  · exact List.attach_map_val (l := info.commentToList)
      (f := fun ct => (ct.type, (.inl ct.textNo : ℕ ⊕ Time)))
  · exact List.attach_map_val (l := info.recipientList)
      (f := fun r => (r.type, (.inl r.recpt : ℕ ⊕ Time)))

/-- A misc-info is read item by item in the order sent. -/
theorem Sendable.readTuples_reads (h : info.Sendable) :
    spacing.Reads readTuples info.sentTuples (Array.text tupleText info.getTuples) false := by
  rw [← h.text_items, ← h.typeAndData_items]
  exact (Array.reads h.items fun item _ => RawMiscInfo.reads item).map

/-- A misc-info is read as its recipients and comment links. -/
theorem Sendable.parse_reads (h : info.Sendable) :
    spacing.Reads CookedMiscInfo.parse info.sent (Array.text tupleText info.getTuples) false := by
  intro ts hts
  rw [← h.text_items] at hts
  exact CookedMiscInfo.reads info.sent ts ⟨h.items, h.items_mem, hts⟩

end CookedMiscInfo

/-! ## Requests are read from their lines -/

/-- A reader of misc-infos, with what it returns for those that can be sent. -/
def ReadsMiscInfo (readMiscInfo : Parser μ) (f : CookedMiscInfo → μ) : Prop :=
  ∀ info : CookedMiscInfo, info.Sendable →
    spacing.Reads readMiscInfo (f info) (Array.text tupleText info.getTuples) false

section Reading

variable {readMiscInfo : Parser μ} {f : CookedMiscInfo → μ}

/-- An argument of its class is read by the `parse` of the class. -/
theorem DataType.read_reads (hread : ReadsMiscInfo readMiscInfo f) {dataType : DataType}
    {val : ArgValue CookedMiscInfo} (haccepts : dataType.accepts val = true)
    (hsend : ∀ info, val = .miscInfo info → info.Sendable) :
    ∃ eats, spacing.Reads (dataType.read readMiscInfo) (val.received f) val.text eats := by
  cases val with
  | int n => cases dataType <;> first | (cases haccepts; done) | exact ⟨true, (Int.reads n).map⟩
  | string s =>
    cases dataType <;> first | (cases haccepts; done) | exact ⟨false, (String.reads s).map⟩
  | bitstring bits =>
    have hlength : ∀ {n : ℕ}, decide (bits.length = n) = true → bits.length = n :=
      fun h => of_decide_eq_true h
    cases dataType <;> first
      | cases haccepts
      | exact ⟨true, bitstring_reads (by omega) (hlength haccepts)⟩
  | arrayInt ns =>
    cases dataType <;> first
      | (cases haccepts; done)
      | exact ⟨false, (Array.reads ns fun n _ => Int.reads n).map⟩
  | arrayAuxItemInput items =>
    cases dataType <;> first
      | (cases haccepts; done)
      | exact ⟨false, (Array.reads items fun item _ => readAuxItemInput_reads item).map⟩
  | miscInfo info =>
    cases dataType <;> first
      | (cases haccepts; done)
      | exact ⟨false, (hread info (hsend info rfl)).map⟩
  | infoOld info =>
    cases dataType <;> first | (cases haccepts; done) | exact ⟨true, info.reads.map⟩

/-- The arguments are read in turn. -/
theorem readArgs_reads (hread : ReadsMiscInfo readMiscInfo f) {ARGS : List Argument}
    {args : List (ArgValue CookedMiscInfo)}
    (htyped : List.Forall₂ (fun argDef val => argDef.dataType.accepts val = true) ARGS args)
    (hsend : ∀ info, ArgValue.miscInfo info ∈ args → info.Sendable) :
    ∃ eats, spacing.ReadsTail (readArgs readMiscInfo ARGS) (args.map (ArgValue.received f))
      (args.map ArgValue.text).prod eats := by
  induction htyped with
  | nil => exact ⟨true, ReadsTail.pure⟩
  | @cons argDef val ARGS args hval htyped ih =>
    obtain ⟨before, hfirst⟩ := DataType.read_reads hread hval fun info hinfo =>
      hsend info (hinfo ▸ List.mem_cons_self)
    obtain ⟨eats, hrest⟩ := ih fun info hinfo => hsend info (List.mem_cons_of_mem val hinfo)
    rcases hrest with ⟨hpure, hone, -⟩ | hrest
    · refine ⟨before, Or.inr ?_⟩
      rw [List.map_cons, List.map_cons, List.prod_cons, hone, mul_one]
      refine hfirst.bind_of_eq_pure ?_
      rw [hpure]
      rfl
    · exact ⟨eats, Or.inr (hfirst.bind hrest.bind_pure)⟩

/-- The class of a call number. -/
theorem find?_requestClasses {cls : RequestClass} (h : cls ∈ requestClasses) :
    (requestClasses.find? fun c => c.callNo = cls.callNo) = some cls := by
  have hnodup := nodup_callNo
  generalize requestClasses = classes at h hnodup
  induction classes with
  | nil => cases h
  | cons c classes ih =>
    rw [List.map_cons, List.nodup_cons] at hnodup
    rw [List.find?_cons]
    rcases List.mem_cons.mp h with rfl | hmem
    · simp
    · have hne : ¬ c.callNo = cls.callNo := fun heq =>
        hnodup.1 (heq ▸ List.mem_map_of_mem hmem)
      simp [hne, ih hmem hnodup.2]

/-- The tokens of a request with its ref-no. -/
def TypedRequest.tokens (refNo : ℕ) (self : TypedRequest) : List Bytes :=
  decimal refNo :: decimal self.cls.callNo :: self.args.1.flatMap ArgValue.tokens

theorem ArgValue.tokens_ne_nil (val : ArgValue CookedMiscInfo) : val.tokens ≠ [] := by
  cases val <;> exact List.cons_ne_nil _ _

/-- What `_send_request` writes for a request is a line of its tokens. -/
theorem TypedRequest.line_eq (refNo : ℕ) (self : TypedRequest) :
    decimal refNo ++ ascii " " ++ self.request.toString =
      spacing.text (self.tokens refNo) ++ ascii "\n" := by
  have hne : ∀ ts ∈ [decimal self.cls.callNo] :: self.args.1.map ArgValue.tokens, ts ≠ [] := by
    intro ts hts
    rcases List.mem_cons.mp hts with rfl | hts
    · exact List.cons_ne_nil _ _
    · obtain ⟨val, -, rfl⟩ := List.mem_map.mp hts
      exact val.tokens_ne_nil
  have htext := spacing.intercalate_text _ hne
  have hargs : (self.args.1.map ArgValue.tokens).map spacing.text =
      self.args.1.map ArgValue.toString := by
    simp [ArgValue.toString_eq]
  rw [List.map_cons, spacing.text_singleton, hargs] at htext
  have hsep : [spacing.sep] = ascii " " := by decide
  rw [hsep] at htext
  rw [Request.toString, request, htext, tokens, spacing.text_cons (List.cons_ne_nil _ _)]
  simp [List.flatMap_def, ascii, spacing]

theorem readRequest_reads (hread : ReadsMiscInfo readMiscInfo f) (refNo : ℕ) {req : TypedRequest}
    (hsend : req.Sendable) : ∃ L eats, req.tokens refNo ∈ L ∧
      spacing.Reads (readRequest readMiscInfo) (req.received f refNo) L eats := by
  obtain ⟨eats, hargs⟩ := readArgs_reads hread req.args.2 hsend
  have hvalues : req.args.1.flatMap ArgValue.tokens ∈ (req.args.1.map ArgValue.text).prod := by
    induction req.args.1 with
    | nil => exact Language.nil_mem_one
    | cons val args ih => exact Language.append_mem_mul val.tokens_mem ih
  have htokens : req.tokens refNo ∈ Int.text refNo * (Int.text req.cls.callNo *
      (req.args.1.map ArgValue.text).prod) :=
    Language.append_mem_mul (Set.mem_singleton [decimal refNo])
      (Language.append_mem_mul (Set.mem_singleton [decimal req.cls.callNo]) hvalues)
  refine ⟨_, eats, htokens, (readInt_reads refNo).bind
    ((readInt_reads req.cls.callNo).bind_tail ?_)⟩
  rw [find?_requestClasses req.isClass]
  exact hargs.bind_pure

/-- A request is read from what was written for it, whatever follows and whatever is left
of the request before it. -/
theorem readRequest_line (hread : ReadsMiscInfo readMiscInfo f) (refNo : ℕ) {req : TypedRequest}
    (hsend : req.Sendable) {pre : Bytes} (hpre : Leftover pre) (rest : Bytes) :
    ∃ pre', Leftover pre' ∧ (readRequest readMiscInfo).run
        (pre ++ (decimal refNo ++ ascii " " ++ req.request.toString ++ rest)) =
      .returned (req.received f refNo) (pre' ++ rest) := by
  obtain ⟨L, eats, htokens, hreads⟩ := readRequest_reads hread refNo hsend
  obtain ⟨-, hrun⟩ := hreads _ htokens
  have hbytes : pre ++ (decimal refNo ++ ascii " " ++ req.request.toString ++ rest) =
      pre ++ spacing.text (req.tokens refNo) ++ '\n'.toUInt8 :: rest := by
    rw [req.line_eq refNo]
    simp [ascii]
  rw [hbytes, hrun pre hpre.skip '\n'.toUInt8 (by decide) rest]
  cases eats with
  | true => exact ⟨[], Or.inl rfl, rfl⟩
  | false => exact ⟨ascii "\n", Or.inr rfl, rfl⟩

/-- A sequence of requests is read from their lines. -/
theorem readRequests_lines (hread : ReadsMiscInfo readMiscInfo f)
    {reqs : List (ℕ × TypedRequest)} (hsend : ∀ x ∈ reqs, x.2.Sendable) {pre : Bytes}
    (hpre : Leftover pre) :
    ∃ pre', Leftover pre' ∧ ((readRequest readMiscInfo).times reqs.length).run
        (pre ++ (reqs.map fun x =>
          decimal x.1 ++ ascii " " ++ x.2.request.toString).flatten) =
      .returned (reqs.map fun x => x.2.received f x.1) pre' := by
  induction reqs generalizing pre with
  | nil => exact ⟨pre, hpre, by simp [Reader.times]⟩
  | cons x reqs ih =>
    obtain ⟨mid, hmid, hfirst⟩ := readRequest_line hread x.1 (hsend x List.mem_cons_self) hpre
      (reqs.map fun x => decimal x.1 ++ ascii " " ++ x.2.request.toString).flatten
    obtain ⟨pre', hpre', hrest⟩ := ih (fun y hy => hsend y (List.mem_cons_of_mem x hy)) hmid
    refine ⟨pre', hpre', ?_⟩
    simp only [List.length_cons, Reader.times, Reader.run_bind, List.map_cons, List.flatten_cons,
      hfirst, Outcome.andThen_returned, hrest, Reader.run_pure]

/-- There is no request in what is left of one. -/
theorem readRequest_leftover {pre : Bytes} (hpre : Leftover pre) :
    ∃ rest, (readRequest readMiscInfo).run pre = .starved rest := by
  rcases hpre with rfl | rfl
  · exact ⟨[], rfl⟩
  · exact ⟨[], rfl⟩

end Reading

open Exchange in
/-- What a connection has written is its requests, in the order sent. -/
theorem Run.written {socket : Pieces} {s : Exchange} (h : Calls (new socket) s) :
    s.conn.written =
      (s.sent.map fun x => decimal x.1 ++ ascii " " ++ x.2.toString).flatten := by
  refine h.induct (P := fun s => s.conn.written =
    (s.sent.map fun x => decimal x.1 ++ ascii " " ++ x.2.toString).flatten) rfl ?_
  rintro u call v hrun - rfl hu
  cases call with
  | sendRequest req =>
    obtain ⟨conn, hcall, -, -, hwritten⟩ := hrun.matched.sendRequest req
    simp only [Exchange.call, hcall, hwritten, hu]
    simp
  | readResponse =>
    rcases u.conn.readResponse_cases with
      ⟨resp, conn, hcall, -, -, hwritten, -⟩ | ⟨e, conn, hcall, -, hwritten, -⟩
    · simp only [Exchange.call, hcall, hwritten, hu]
    · simp only [Exchange.call, hcall, hwritten, hu]

/-- The reader recovers a sequence of requests from bytes: the ref-nos `1, 2, 3, ...`, the
call numbers and the arguments, and it finds nothing more. -/
def Recovered (readMiscInfo : Parser μ) (f : CookedMiscInfo → μ) (reqs : List TypedRequest)
    (bytes : Bytes) : Prop :=
  ∃ rest, ((readRequest readMiscInfo).times reqs.length).run bytes =
      .returned (reqs.mapIdx fun i req => req.received f (i + 1)) rest ∧
    ∃ rest', (readRequest readMiscInfo).run rest = .starved rest'

open Exchange in
theorem Run.recovered {socket : Pieces} {s : Exchange} (h : Calls (new socket) s)
    {readMiscInfo : Parser μ} {f : CookedMiscInfo → μ} (hread : ReadsMiscInfo readMiscInfo f)
    {reqs : List TypedRequest} (hsent : s.sent.map Prod.snd = reqs.map TypedRequest.request)
    (hsend : ∀ req ∈ reqs, req.Sendable) :
    Recovered readMiscInfo f reqs s.conn.written := by
  let numbered := reqs.mapIdx fun i req => (i + 1, req)
  have hlen : s.sent.length = reqs.length := by
    simpa using congrArg List.length hsent
  have hsame : s.sent = numbered.map fun x => (x.1, x.2.request) := by
    have hfst := h.matched.sent_refNos
    have hrefNo : s.conn.refNo = reqs.length := by
      simpa [hlen] using (congrArg List.length hfst).symm
    rw [hrefNo] at hfst
    refine List.ext_getElem (by simp [numbered, hlen]) fun i hi hi' => ?_
    have hreq : i < reqs.length := hlen ▸ hi
    have h1 : s.sent[i].1 = i + 1 := by
      have hget := List.getElem_of_eq hfst (i := i) (by simpa using hi)
      simpa [Nat.add_comm] using hget
    have h2 : s.sent[i].2 = reqs[i].request := by
      have hget := List.getElem_of_eq hsent (i := i) (by simpa using hi)
      rwa [List.getElem_map, List.getElem_map] at hget
    simp [numbered, Prod.ext_iff, h1, h2]
  have hwritten : s.conn.written =
      [] ++ (numbered.map fun x => decimal x.1 ++ ascii " " ++ x.2.request.toString).flatten := by
    rw [h.written, hsame, List.map_map, List.nil_append]
    rfl
  have hnumbered : ∀ x ∈ numbered, x.2.Sendable := by
    intro x hx
    obtain ⟨i, hi, rfl⟩ := List.mem_mapIdx.mp hx
    exact hsend _ (List.getElem_mem hi)
  obtain ⟨rest, hrest, hrun⟩ := readRequests_lines hread hnumbered (Or.inl rfl)
  have hvalues : (numbered.map fun x => x.2.received f x.1) =
      reqs.mapIdx fun i req => req.received f (i + 1) :=
    List.ext_getElem (by simp [numbered]) (by simp [numbered])
  have hcount : numbered.length = reqs.length := List.length_mapIdx
  rw [hvalues, hcount] at hrun
  exact ⟨rest, by rw [hwritten, hrun], readRequest_leftover hrest⟩

open Exchange in
/-- **The request byte stream is uniquely decodable.** After any run of one connection, the
requests sent are recovered from the bytes written, a misc-info item by item in the order
sent, or as its recipients and comment links by its own `parse`. -/
theorem Run.requests_recovered {socket : Pieces} {s : Exchange} (h : Calls (new socket) s)
    {reqs : List TypedRequest} (hsent : s.sent.map Prod.snd = reqs.map TypedRequest.request)
    (hsend : ∀ req ∈ reqs, req.Sendable) :
    Recovered readTuples CookedMiscInfo.sentTuples reqs s.conn.written ∧
      Recovered CookedMiscInfo.parse CookedMiscInfo.sent reqs s.conn.written :=
  ⟨h.recovered (fun _ hinfo => hinfo.readTuples_reads) hsent hsend,
    h.recovered (fun _ hinfo => hinfo.parse_reads) hsent hsend⟩

/-- A recipient, a comment link and a link in the other direction. -/
def sampleMiscInfo : CookedMiscInfo where
  recipientList := [{ type := MI_RECPT, recpt := 7, locNo := some 3 }]
  commentToList := [{ type := MI_COMM_TO, textNo := 5 }]
  commentInList := [{ type := MI_COMM_TO, textNo := 9 }]

/-- A text that ends like an array and goes on like a request. -/
def sampleRequest : TypedRequest where
  cls := ReqCreateText
  isClass := by simp [requestClasses]
  args := ⟨[.string (ascii "\x7d\n2 0H"), .miscInfo sampleMiscInfo,
    .arrayAuxItemInput [{ tag := 1, data := ascii " " }]], .cons rfl (.cons rfl (.cons rfl .nil))⟩

open Exchange in
theorem Run.requests_recovered_sample :
    let once := (new .eof).call (.sendRequest sampleRequest.request)
    let twice := once.call (.sendRequest sampleRequest.request)
    let reqs := [sampleRequest, sampleRequest]
    Recovered readTuples CookedMiscInfo.sentTuples reqs twice.conn.written ∧
      Recovered CookedMiscInfo.parse CookedMiscInfo.sent reqs twice.conn.written := by
  intro once twice reqs
  have honce : Calls (new .eof) once := Run.refl.tail trivial rfl
  have hsend : sampleRequest.Sendable := by
    intro info hinfo
    obtain rfl : info = sampleMiscInfo := by simpa [sampleRequest] using hinfo
    exact ⟨by decide, by decide⟩
  exact Run.requests_recovered (honce.tail trivial rfl) rfl (by simp [reqs, hsend])

/-- The line of a request under its ref-no. -/
def requestLine (x : ℕ × Request) : Bytes := decimal x.1 ++ ascii " " ++ x.2.toString

/-- The lines that are written for requests. -/
def requestLines (reqs : List TypedRequest) : List Bytes :=
  reqs.mapIdx fun i req => requestLine (i + 1, req.request)

@[simp] theorem length_requestLines (reqs : List TypedRequest) :
    (requestLines reqs).length = reqs.length := List.length_mapIdx

theorem requestLines_append_singleton (reqs : List TypedRequest) (req : TypedRequest) :
    requestLines (reqs ++ [req]) =
      requestLines reqs ++ [requestLine (reqs.length + 1, req.request)] := by
  simp [requestLines, List.mapIdx_append]

end Pylyskom
