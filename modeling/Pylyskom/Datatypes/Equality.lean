import Pylyskom.Datatypes

/-!
# Comparing text-stats

The `__eq__` methods under `TextStat`. The operands of `and` are evaluated from the left,
and lists of equal length are compared element by element, up to the first difference. The
methods of `MIRecipient` and `MICommentTo` look up `send_by`, which no object has, when
everything before it is equal.
-/

namespace Pylyskom

/-- Looking up an attribute that an object does not have. -/
def noAttribute : Except Exn Bool := .error (.builtinError .attributeError)

/-- The elements in pairs. -/
def allEqual {α : Type} (eq : α → α → Except Exn Bool) : List α → List α → Except Exn Bool
  | a :: l, b :: l' => eq a b <&&> allEqual eq l l'
  | _, _ => .ok true

/-- `l == l'` for lists, given the `__eq__` of their elements. -/
def listEqual {α : Type} (eq : α → α → Except Exn Bool) (l l' : List α) : Except Exn Bool :=
  if l.length ≠ l'.length then .ok false else allEqual eq l l'

def Time.eq (self other : Time) : Except Exn Bool :=
  .ok (self.seconds = other.seconds) <&&>
  .ok (self.minutes = other.minutes) <&&>
  .ok (self.hours = other.hours) <&&>
  .ok (self.day = other.day) <&&>
  .ok (self.month = other.month) <&&>
  .ok (self.year = other.year) <&&>
  .ok (self.dayOfWeek = other.dayOfWeek) <&&>
  .ok (self.dayOfYear = other.dayOfYear) <&&>
  .ok (self.isDst = other.isDst)

/-- `t == t'` for what may be `None`, which has no attribute `seconds`. -/
def Time.eqOrNone : Option Time → Option Time → Except Exn Bool
  | none, none => .ok true
  | some self, some other => self.eq other
  | _, _ => noAttribute

def MIRecipient.eq (self other : MIRecipient) : Except Exn Bool :=
  .ok (self.type = other.type) <&&>
  .ok (self.recpt = other.recpt) <&&>
  .ok (self.locNo = other.locNo) <&&>
  Time.eqOrNone self.recTime other.recTime <&&>
  noAttribute -- other.send_by

def MICommentTo.eq (self other : MICommentTo) : Except Exn Bool :=
  .ok (self.type = other.type) <&&>
  .ok (self.textNo = other.textNo) <&&>
  noAttribute -- other.send_by

def MICommentIn.eq (self other : MICommentIn) : Except Exn Bool :=
  .ok (self.type = other.type) <&&>
  .ok (self.textNo = other.textNo)

def CookedMiscInfo.eq (self other : CookedMiscInfo) : Except Exn Bool :=
  listEqual MIRecipient.eq self.recipientList other.recipientList <&&>
  listEqual MICommentTo.eq self.commentToList other.commentToList <&&>
  listEqual MICommentIn.eq self.commentInList other.commentInList

def AuxItem.eq (self other : AuxItem) : Except Exn Bool :=
  .ok (self.auxNo = other.auxNo) <&&>
  .ok (self.tag = other.tag) <&&>
  .ok (self.creator = other.creator) <&&>
  self.createdAt.eq other.createdAt <&&>
  .ok (self.flags = other.flags) <&&>
  .ok (self.inheritLimit = other.inheritLimit) <&&>
  .ok (self.data = other.data)

def TextStat.eq (self other : TextStat) : Except Exn Bool :=
  self.creationTime.eq other.creationTime <&&>
  .ok (self.author = other.author) <&&>
  .ok (self.noOfLines = other.noOfLines) <&&>
  .ok (self.noOfChars = other.noOfChars) <&&>
  .ok (self.noOfMarks = other.noOfMarks) <&&>
  self.miscInfo.eq other.miscInfo <&&>
  listEqual AuxItem.eq self.auxItems other.auxItems

/-! ## Comparisons that are right -/

/-- The first operand decides if it is false. -/
theorem ok_andM (p : Bool) (m : Except Exn Bool) :
    ((.ok p : Except Exn Bool) <&&> m) = if p then m else .ok false := by
  cases p <;> rfl

theorem error_andM (e : Exn) (m : Except Exn Bool) :
    ((.error e : Except Exn Bool) <&&> m) = .error e := rfl

theorem ok_andM_ok (p q : Bool) : ((.ok p : Except Exn Bool) <&&> .ok q) = .ok (p && q) := by
  cases p <;> rfl

theorem Time.eq_eq (self other : Time) : self.eq other = .ok (decide (self = other)) := by
  cases self
  cases other
  simp only [Time.eq, ok_andM_ok, Time.mk.injEq, Bool.decide_and]

theorem MICommentIn.eq_eq (self other : MICommentIn) :
    self.eq other = .ok (decide (self = other)) := by
  cases self
  cases other
  simp only [MICommentIn.eq, ok_andM_ok, MICommentIn.mk.injEq, Bool.decide_and]

theorem AuxItem.eq_eq (self other : AuxItem) : self.eq other = .ok (decide (self = other)) := by
  cases self
  cases other
  simp only [AuxItem.eq, Time.eq_eq, ok_andM_ok, AuxItem.mk.injEq, Bool.decide_and]

/-- Lists are compared right if their elements are. -/
theorem listEqual_eq {α : Type} [DecidableEq α] {eq : α → α → Except Exn Bool}
    (heq : ∀ a b, eq a b = .ok (decide (a = b))) (l l' : List α) :
    listEqual eq l l' = .ok (decide (l = l')) := by
  have hall : ∀ l l' : List α, l.length = l'.length →
      allEqual eq l l' = .ok (decide (l = l')) := by
    intro l
    induction l with
    | nil =>
      intro l' hlen
      obtain rfl := List.length_eq_zero_iff.mp hlen.symm
      rfl
    | cons a l ih =>
      intro l' hlen
      cases l' with
      | nil => cases hlen
      | cons b l' =>
        rw [allEqual, heq, ih l' (Nat.succ.inj hlen), ok_andM_ok]
        simp only [List.cons.injEq, Bool.decide_and]
  rw [listEqual]
  split
  · next hlen =>
    have hne : l ≠ l' := fun h => hlen (congrArg List.length h)
    rw [decide_eq_false hne]
  · next hlen => exact hall l l' (not_not.mp hlen)

/-! ## Comparisons that fail -/

/-- All that is compared before `sent_by` is equal, or just one has a `rec_time`. -/
def MIRecipient.Alike (a b : MIRecipient) : Prop :=
  a.type = b.type ∧ a.recpt = b.recpt ∧ a.locNo = b.locNo ∧
    (a.recTime = b.recTime ∨ a.recTime.isSome ≠ b.recTime.isSome)

def MICommentTo.Alike (a b : MICommentTo) : Prop := a.type = b.type ∧ a.textNo = b.textNo

instance (a b : MIRecipient) : Decidable (a.Alike b) := inferInstanceAs (Decidable (_ ∧ _))

instance (a b : MICommentTo) : Decidable (a.Alike b) := inferInstanceAs (Decidable (_ ∧ _))

theorem Time.eqOrNone_eq (self other : Option Time) :
    Time.eqOrNone self other =
      if self.isSome ≠ other.isSome then noAttribute else .ok (decide (self = other)) := by
  cases self with
  | none =>
    cases other with
    | none => rfl
    | some other => rfl
  | some self =>
    cases other with
    | none => rfl
    | some other =>
      have hsome : ¬ (some self).isSome ≠ (some other).isSome := fun h => h rfl
      rw [if_neg hsome]
      simp only [eqOrNone, Time.eq_eq, Option.some.injEq]

/-- Recipients that are alike cannot be compared, others differ. -/
theorem MIRecipient.eq_eq (a b : MIRecipient) :
    a.eq b = if a.Alike b then noAttribute else .ok false := by
  by_cases htype : a.type = b.type
  · by_cases hrecpt : a.recpt = b.recpt
    · by_cases hloc : a.locNo = b.locNo
      · by_cases hsome : a.recTime.isSome = b.recTime.isSome
        · by_cases htime : a.recTime = b.recTime
          · rw [if_pos ⟨htype, hrecpt, hloc, Or.inl htime⟩]
            simp [MIRecipient.eq, htype, hrecpt, hloc, htime, Time.eqOrNone_eq, ok_andM]
          · rw [if_neg fun h => h.2.2.2.elim htime (fun hne => hne hsome)]
            simp [MIRecipient.eq, htype, hrecpt, hloc, hsome, htime, Time.eqOrNone_eq, ok_andM]
        · rw [if_pos ⟨htype, hrecpt, hloc, Or.inr hsome⟩]
          simp [MIRecipient.eq, htype, hrecpt, hloc, hsome, Time.eqOrNone_eq, ok_andM,
            noAttribute, error_andM]
      · rw [if_neg fun h => hloc h.2.2.1]
        simp [MIRecipient.eq, htype, hrecpt, hloc, ok_andM]
    · rw [if_neg fun h => hrecpt h.2.1]
      simp [MIRecipient.eq, htype, hrecpt, ok_andM]
  · rw [if_neg fun h => htype h.1]
    simp [MIRecipient.eq, htype, ok_andM]

theorem MICommentTo.eq_eq (a b : MICommentTo) :
    a.eq b = if a.Alike b then noAttribute else .ok false := by
  by_cases htype : a.type = b.type
  · by_cases htext : a.textNo = b.textNo
    · rw [if_pos ⟨htype, htext⟩]
      simp [MICommentTo.eq, htype, htext, ok_andM]
    · rw [if_neg fun h => htext h.2]
      simp [MICommentTo.eq, htype, htext, ok_andM]
  · rw [if_neg fun h => htype h.1]
    simp [MICommentTo.eq, htype, ok_andM]

/-- The first elements of lists of equal length are alike. -/
def HeadsAlike {α : Type} (alike : α → α → Prop) (l l' : List α) : Prop :=
  l.length = l'.length ∧ ∃ a ∈ l.head?, ∃ b ∈ l'.head?, alike a b

/-- A comparison of elements that is never true decides the lists by their first elements. -/
theorem listEqual_of_alike {α : Type} [DecidableEq α] {eq : α → α → Except Exn Bool}
    {alike : α → α → Prop} [∀ a b, Decidable (alike a b)] (hrefl : ∀ a, alike a a)
    (heq : ∀ a b, eq a b = if alike a b then noAttribute else .ok false) (l l' : List α) :
    (HeadsAlike alike l l' → listEqual eq l l' = noAttribute) ∧
      (¬ HeadsAlike alike l l' → listEqual eq l l' = .ok (decide (l = l'))) := by
  rw [listEqual]
  by_cases hlen : l.length = l'.length
  · rw [if_neg (not_not.mpr hlen)]
    cases l with
    | nil =>
      obtain rfl := List.length_eq_zero_iff.mp hlen.symm
      exact ⟨fun h => by simp [HeadsAlike] at h, fun _ => rfl⟩
    | cons a l =>
      cases l' with
      | nil => cases hlen
      | cons b l' =>
        have hheads : HeadsAlike alike (a :: l) (b :: l') ↔ alike a b := by
          simp [HeadsAlike, Nat.succ.inj hlen]
        rw [hheads, allEqual, heq]
        refine ⟨fun h => by rw [if_pos h]; rfl, fun h => ?_⟩
        have hne : a :: l ≠ b :: l' := by
          rintro heqs
          obtain ⟨rfl, -⟩ := List.cons.inj heqs
          exact h (hrefl a)
        rw [if_neg h, decide_eq_false hne]
        rfl
  · rw [if_pos hlen]
    have hne : l ≠ l' := fun h => hlen (congrArg List.length h)
    exact ⟨fun h => absurd h.1 hlen, fun _ => by rw [decide_eq_false hne]⟩

/-- The comparison comes to two recipients or two comment links that are alike. -/
def TextStat.ComparesAlike (a b : TextStat) : Prop :=
  a.creationTime = b.creationTime ∧ a.author = b.author ∧ a.noOfLines = b.noOfLines ∧
    a.noOfChars = b.noOfChars ∧ a.noOfMarks = b.noOfMarks ∧
    (HeadsAlike MIRecipient.Alike a.miscInfo.recipientList b.miscInfo.recipientList ∨
      (a.miscInfo.recipientList = b.miscInfo.recipientList ∧
        HeadsAlike MICommentTo.Alike a.miscInfo.commentToList b.miscInfo.commentToList))

theorem CookedMiscInfo.eq_cases (a b : CookedMiscInfo) :
    ((HeadsAlike MIRecipient.Alike a.recipientList b.recipientList ∨
        (a.recipientList = b.recipientList ∧
          HeadsAlike MICommentTo.Alike a.commentToList b.commentToList)) →
      a.eq b = noAttribute) ∧
    (¬ (HeadsAlike MIRecipient.Alike a.recipientList b.recipientList ∨
        (a.recipientList = b.recipientList ∧
          HeadsAlike MICommentTo.Alike a.commentToList b.commentToList)) →
      a.eq b = .ok (decide (a = b))) := by
  obtain ⟨hrecipients, hrecipients'⟩ := listEqual_of_alike
    (fun r => ⟨rfl, rfl, rfl, Or.inl rfl⟩) MIRecipient.eq_eq a.recipientList b.recipientList
  obtain ⟨hcomments, hcomments'⟩ := listEqual_of_alike
    (fun r => ⟨rfl, rfl⟩) MICommentTo.eq_eq a.commentToList b.commentToList
  have hreplies := listEqual_eq MICommentIn.eq_eq a.commentInList b.commentInList
  have hequal : a = b ↔ a.recipientList = b.recipientList ∧ a.commentToList = b.commentToList ∧
      a.commentInList = b.commentInList := by
    cases a
    cases b
    exact CookedMiscInfo.mk.injEq .. ▸ Iff.rfl
  by_cases hr : HeadsAlike MIRecipient.Alike a.recipientList b.recipientList
  · refine ⟨fun _ => ?_, fun h => absurd (Or.inl hr) h⟩
    rw [CookedMiscInfo.eq, hrecipients hr]
    rfl
  · rw [CookedMiscInfo.eq, hrecipients' hr, ok_andM]
    by_cases hsame : a.recipientList = b.recipientList
    · rw [if_pos (decide_eq_true hsame)]
      by_cases hc : HeadsAlike MICommentTo.Alike a.commentToList b.commentToList
      · refine ⟨fun _ => ?_, fun h => absurd (Or.inr ⟨hsame, hc⟩) h⟩
        rw [hcomments hc]
        rfl
      · refine ⟨fun h => ?_, fun _ => ?_⟩
        · rcases h with h | h
          · exact absurd h hr
          · exact absurd h.2 hc
        · rw [hcomments' hc, hreplies, ok_andM_ok]
          simp only [hequal, hsame, true_and, Bool.decide_and]
    · refine ⟨fun h => ?_, fun _ => ?_⟩
      · rcases h with h | h
        · exact absurd h hr
        · exact absurd h.1 hsame
      · simp [hequal, hsame]

/-- Text-stats are compared by all their fields, unless the comparison comes to two recipients
or two comment links that are alike: then it raises `AttributeError`. -/
theorem TextStat.eq_eq_iff (a b : TextStat) :
    a.eq b = .ok (decide (a = b)) ↔ ¬ a.ComparesAlike b := by
  have hequal : a = b ↔ (a.creationTime = b.creationTime ∧ a.author = b.author ∧
      a.noOfLines = b.noOfLines ∧ a.noOfChars = b.noOfChars ∧ a.noOfMarks = b.noOfMarks) ∧
      a.miscInfo = b.miscInfo ∧ a.auxItems = b.auxItems := by
    cases a
    cases b
    simp only [TextStat.mk.injEq, and_assoc]
  have hfields : a.eq b = if a.creationTime = b.creationTime ∧ a.author = b.author ∧
      a.noOfLines = b.noOfLines ∧ a.noOfChars = b.noOfChars ∧ a.noOfMarks = b.noOfMarks then
        (a.miscInfo.eq b.miscInfo <&&> listEqual AuxItem.eq a.auxItems b.auxItems)
      else .ok false := by
    simp only [TextStat.eq, Time.eq_eq, ok_andM, decide_eq_true_eq, ite_and]
  have hitems := listEqual_eq AuxItem.eq_eq a.auxItems b.auxItems
  obtain ⟨hfails, hcompares⟩ := CookedMiscInfo.eq_cases a.miscInfo b.miscInfo
  by_cases hfirst : a.creationTime = b.creationTime ∧ a.author = b.author ∧
      a.noOfLines = b.noOfLines ∧ a.noOfChars = b.noOfChars ∧ a.noOfMarks = b.noOfMarks
  · rw [hfields, if_pos hfirst]
    obtain ⟨htime, hauthor, hlines, hchars, hmarks⟩ := hfirst
    by_cases halike : HeadsAlike MIRecipient.Alike a.miscInfo.recipientList
          b.miscInfo.recipientList ∨
        (a.miscInfo.recipientList = b.miscInfo.recipientList ∧
          HeadsAlike MICommentTo.Alike a.miscInfo.commentToList b.miscInfo.commentToList)
    · rw [hfails halike]
      constructor
      · intro h
        cases h
      · intro h
        exact absurd ⟨htime, hauthor, hlines, hchars, hmarks, halike⟩ h
    · rw [hcompares halike, hitems, ok_andM_ok]
      refine ⟨fun _ h => halike h.2.2.2.2.2, fun _ => ?_⟩
      simp only [hequal, htime, hauthor, hlines, hchars, hmarks, true_and, Bool.decide_and]
  · rw [hfields, if_neg hfirst]
    refine ⟨fun _ h => hfirst ⟨h.1, h.2.1, h.2.2.1, h.2.2.2.1, h.2.2.2.2.1⟩, fun _ => ?_⟩
    have hne : a ≠ b := fun h => hfirst (hequal.mp h).1
    rw [decide_eq_false hne]

/-- A text with one recipient, which is compared with the same text from another parse. -/
theorem TextStat.eq_recipient :
    let a : TextStat :=
      { creationTime := ⟨0, 0, 0, 1, 0, 100, 0, 0, 0⟩
        author := 1
        noOfLines := 1
        noOfChars := 1
        noOfMarks := 0
        miscInfo := { recipientList := [{ type := MI_RECPT, recpt := 6, locNo := some 7 }] }
        auxItems := [] }
    a.eq a ≠ .ok (decide (a = a)) ∧ a.eq a = .error (.builtinError .attributeError) := by
  refine ⟨fun h => ?_, rfl⟩
  cases h

end Pylyskom
