import Pylyskom.TextForm

/-!
# Cooking misc-info

The misc-info of a text arrives as one array of items. `CookedMiscInfo.parse` groups it
again; on the items of well-formed groups it returns what the groups say.
-/

namespace Pylyskom

namespace MIRecipient

/-- The items that continue the group of a recipient. -/
def Continues : RawMiscInfo → Prop
  | .number type _ _ => type = MI_LOC_NO ∨ type = MI_SENT_BY
  | .time _ _ _ => True

/-- What such an item says about the recipient. -/
def add (self : MIRecipient) : RawMiscInfo → MIRecipient
  | .number type data _ =>
    if type = MI_LOC_NO then { self with locNo := some data }
    else { self with sentBy := some data }
  | .time type data _ =>
    if type = MI_REC_TIME then { self with recTime := some data }
    else { self with sentAt := some data }

/-- The items of a group are taken up to the first item that does not continue it. -/
theorem decodeAdditional_append (self : MIRecipient) {extra raw : List RawMiscInfo}
    (hextra : ∀ item ∈ extra, Continues item) (hraw : ∀ item ∈ raw.head?, ¬ Continues item) :
    self.decodeAdditional (extra ++ raw) = (extra.foldl add self, raw) := by
  induction extra generalizing self with
  | nil =>
    match raw, hraw with
    | [], _ => rfl
    | .number type data h :: raw, hraw =>
      have hstop := hraw _ rfl
      simp only [Continues, not_or] at hstop
      simp [decodeAdditional, hstop]
    | .time type data h :: raw, hraw => exact absurd trivial (hraw _ rfl)
  | cons item extra ih =>
    have hrest := fun self => ih self fun x hx => hextra x (by simp [hx])
    have hitem := hextra item (by simp)
    cases item with
    | number type data h =>
      rcases hitem with rfl | rfl
      · simp [decodeAdditional, hrest, add]
      · have hne : MI_SENT_BY ≠ MI_LOC_NO := by decide
        simp [decodeAdditional, hrest, add, hne]
    | time type data h =>
      rcases h with rfl | rfl
      · simp [decodeAdditional, hrest, add]
      · have hne : MI_SENT_AT ≠ MI_REC_TIME := by decide
        simp [decodeAdditional, hrest, add, hne]

theorem continues_of_mem_additional {self : MIRecipient} {item : RawMiscInfo}
    (h : item ∈ self.additional) : Continues item := by
  simp only [additional, List.mem_append, Option.mem_toList, Option.map_eq_some_iff] at h
  rcases h with ((⟨_, _, rfl⟩ | ⟨_, _, rfl⟩) | ⟨_, _, rfl⟩) | ⟨_, _, rfl⟩
  · exact Or.inl rfl
  · trivial
  · exact Or.inr rfl
  · trivial

/-- The items of a group say what they say in any order. -/
theorem foldl_add {self : MIRecipient} {extra : List RawMiscInfo}
    (h : extra.Perm self.additional) :
    extra.foldl add { type := self.type, recpt := self.recpt } = self := by
  have hcomm : ∀ x ∈ self.additional, ∀ y ∈ self.additional, ∀ r : MIRecipient,
      (r.add x).add y = (r.add y).add x := by
    intro x hx y hy r
    simp only [additional, List.mem_append, Option.mem_toList, Option.map_eq_some_iff] at hx hy
    rcases hx with ((⟨a, ha, rfl⟩ | ⟨a, ha, rfl⟩) | ⟨a, ha, rfl⟩) | ⟨a, ha, rfl⟩ <;>
      rcases hy with ((⟨b, hb, rfl⟩ | ⟨b, hb, rfl⟩) | ⟨b, hb, rfl⟩) | ⟨b, hb, rfl⟩ <;>
      simp_all [add, MI_LOC_NO, MI_REC_TIME, MI_SENT_BY, MI_SENT_AT]
  rw [h.foldl_eq' (fun x hx y hy => hcomm x (h.mem_iff.mp hx) y (h.mem_iff.mp hy))]
  obtain ⟨type, recpt, _ | _, _ | _, _ | _, _ | _⟩ := self <;> rfl

end MIRecipient

namespace MICommentTo

/-- The items that continue the group of a comment link. -/
def Continues : RawMiscInfo → Prop
  | .number type _ _ => type = MI_SENT_BY
  | .time type _ _ => type = MI_SENT_AT

/-- What such an item says about the comment link. -/
def add (self : MICommentTo) : RawMiscInfo → MICommentTo
  | .number _ data _ => { self with sentBy := some data }
  | .time _ data _ => { self with sentAt := some data }

/-- The items of a group are taken up to the first item that does not continue it. -/
theorem decodeAdditional_append (self : MICommentTo) {extra raw : List RawMiscInfo}
    (hextra : ∀ item ∈ extra, Continues item) (hraw : ∀ item ∈ raw.head?, ¬ Continues item) :
    self.decodeAdditional (extra ++ raw) = (extra.foldl add self, raw) := by
  induction extra generalizing self with
  | nil =>
    match raw, hraw with
    | [], _ => rfl
    | .number type data h :: raw, hraw =>
      have hstop : ¬ type = MI_SENT_BY := hraw _ rfl
      simp [decodeAdditional, hstop]
    | .time type data h :: raw, hraw =>
      have hstop : ¬ type = MI_SENT_AT := hraw _ rfl
      simp [decodeAdditional, hstop]
  | cons item extra ih =>
    have hrest := fun self => ih self fun x hx => hextra x (by simp [hx])
    have hitem := hextra item (by simp)
    cases item with
    | number type data h =>
      obtain rfl : type = MI_SENT_BY := hitem
      simp [decodeAdditional, hrest, add]
    | time type data h =>
      obtain rfl : type = MI_SENT_AT := hitem
      simp [decodeAdditional, hrest, add]

theorem continues_of_mem_additional {self : MICommentTo} {item : RawMiscInfo}
    (h : item ∈ self.additional) : Continues item := by
  simp only [additional, List.mem_append, Option.mem_toList, Option.map_eq_some_iff] at h
  rcases h with ⟨_, _, rfl⟩ | ⟨_, _, rfl⟩
  · rfl
  · rfl

/-- The items of a group say what they say in any order. -/
theorem foldl_add {self : MICommentTo} {extra : List RawMiscInfo}
    (h : extra.Perm self.additional) :
    extra.foldl add { type := self.type, textNo := self.textNo } = self := by
  have hcomm : ∀ x ∈ self.additional, ∀ y ∈ self.additional, ∀ ct : MICommentTo,
      (ct.add x).add y = (ct.add y).add x := by
    intro x hx y hy ct
    simp only [additional, List.mem_append, Option.mem_toList, Option.map_eq_some_iff] at hx hy
    rcases hx with ⟨a, ha, rfl⟩ | ⟨a, ha, rfl⟩ <;>
      rcases hy with ⟨b, hb, rfl⟩ | ⟨b, hb, rfl⟩ <;> simp_all [add]
  rw [h.foldl_eq' (fun x hx y hy => hcomm x (h.mem_iff.mp hx) y (h.mem_iff.mp hy))]
  obtain ⟨type, textNo, _ | _, _ | _⟩ := self <;> rfl

end MICommentTo

namespace MiscGroup

/-- The first item of a group continues no group. -/
theorem head_not_continues (g : MiscGroup) :
    ¬ MIRecipient.Continues g.head ∧ ¬ MICommentTo.Continues g.head := by
  have hrecipient : ∀ type ∈ [MI_RECPT, MI_CC_RECPT, MI_BCC_RECPT],
      ¬ (type = MI_LOC_NO ∨ type = MI_SENT_BY) ∧ ¬ type = MI_SENT_BY := by decide
  have hcommentTo : ∀ type ∈ [MI_COMM_TO, MI_FOOTN_TO],
      ¬ (type = MI_LOC_NO ∨ type = MI_SENT_BY) ∧ ¬ type = MI_SENT_BY := by decide
  have hcommentIn : ∀ type ∈ [MI_COMM_TO, MI_FOOTN_TO],
      ¬ (type + 1 = MI_LOC_NO ∨ type + 1 = MI_SENT_BY) ∧ ¬ type + 1 = MI_SENT_BY := by decide
  cases g with
  | recipient r h => exact hrecipient r.type h
  | commentTo ct h => exact hcommentTo ct.type h
  | commentIn ci h => exact hcommentIn ci.type h

/-- The items of several groups, if any, start with the first item of a group. -/
theorem head?_of_mem_prod {groups : List MiscGroup} {raw : List RawMiscInfo}
    (h : raw ∈ (groups.map items).prod) : ∀ item ∈ raw.head?, ∃ g : MiscGroup, item = g.head := by
  cases groups with
  | nil =>
    obtain rfl : raw = [] := h
    simp
  | cons g groups =>
    obtain ⟨_, ⟨extra, _, rfl⟩, raw', _, rfl⟩ := Language.mem_mul.mp h
    simp

end MiscGroup

namespace CookedMiscInfo

/-- One misc-info followed by another. -/
def append (obj other : CookedMiscInfo) : CookedMiscInfo where
  recipientList := obj.recipientList ++ other.recipientList
  commentToList := obj.commentToList ++ other.commentToList
  commentInList := obj.commentInList ++ other.commentInList

theorem ofGroups_commentIn (ci : MICommentIn) (h) :
    ofGroups [.commentIn ci h] = { commentInList := [ci] } := rfl

/-- A recipient takes the items that continue its group. -/
theorem cook_recipient (obj : CookedMiscInfo) {type : ℕ}
    (h : type ∈ [MI_RECPT, MI_CC_RECPT, MI_BCC_RECPT]) (recpt : ℕ) (isNumber : ¬ isTimeItem type)
    {extra raw : List RawMiscInfo} (hextra : ∀ item ∈ extra, MIRecipient.Continues item)
    (hraw : ∀ item ∈ raw.head?, ¬ MIRecipient.Continues item) :
    cook obj (.number type recpt isNumber :: (extra ++ raw)) =
      cook (obj.append { recipientList := [extra.foldl MIRecipient.add { type, recpt }] }) raw := by
  have hdecode := MIRecipient.decodeAdditional_append { type, recpt } hextra hraw
  rw [cook, if_pos h, hdecode]
  simp only [append, List.append_nil]

theorem cook_commentTo (obj : CookedMiscInfo) {type : ℕ} (h : type ∈ [MI_COMM_TO, MI_FOOTN_TO])
    (textNo : ℕ) (isNumber : ¬ isTimeItem type) {extra raw : List RawMiscInfo}
    (hextra : ∀ item ∈ extra, MICommentTo.Continues item)
    (hraw : ∀ item ∈ raw.head?, ¬ MICommentTo.Continues item) :
    cook obj (.number type textNo isNumber :: (extra ++ raw)) =
      cook (obj.append { commentToList := [extra.foldl MICommentTo.add { type, textNo }] })
        raw := by
  have hnot : ∀ type ∈ [MI_COMM_TO, MI_FOOTN_TO],
    type ∉ [MI_RECPT, MI_CC_RECPT, MI_BCC_RECPT] := by decide
  have hdecode := MICommentTo.decodeAdditional_append { type, textNo } hextra hraw
  rw [cook, if_neg (hnot _ h), if_pos h, hdecode]
  simp only [append, List.append_nil]

theorem cook_commentIn (obj : CookedMiscInfo) {type : ℕ} (h : type ∈ [MI_COMM_IN, MI_FOOTN_IN])
    (textNo : ℕ) (isNumber : ¬ isTimeItem type) (raw : List RawMiscInfo) :
    cook obj (.number type textNo isNumber :: raw) =
      cook (obj.append { commentInList := [{ type := type - 1, textNo }] }) raw := by
  have hnot : ∀ type ∈ [MI_COMM_IN, MI_FOOTN_IN],
      type ∉ [MI_RECPT, MI_CC_RECPT, MI_BCC_RECPT] ∧ type ∉ [MI_COMM_TO, MI_FOOTN_TO] := by
    decide
  rw [cook, if_neg (hnot _ h).1, if_neg (hnot _ h).2, if_pos h]
  simp only [append, List.append_nil]

/-- Cooking takes one group at a time. -/
theorem cook_group (obj : CookedMiscInfo) (g : MiscGroup) {extra raw : List RawMiscInfo}
    (hextra : extra.Perm g.additional)
    (hraw : ∀ item ∈ raw.head?, ∃ g : MiscGroup, item = g.head) :
    cook obj (g.head :: (extra ++ raw)) = cook (obj.append (ofGroups [g])) raw := by
  have hstop : ∀ item ∈ raw.head?,
      ¬ MIRecipient.Continues item ∧ ¬ MICommentTo.Continues item := by
    intro item hitem
    obtain ⟨g', rfl⟩ := hraw item hitem
    exact g'.head_not_continues
  cases g with
  | recipient r h =>
    have hcook := cook_recipient obj h r.recpt (MiscGroup.not_isTimeItem_recipient h)
      (fun item hitem => MIRecipient.continues_of_mem_additional (hextra.mem_iff.mp hitem))
      fun item hitem => (hstop item hitem).1
    rw [MIRecipient.foldl_add hextra] at hcook
    exact hcook
  | commentTo ct h =>
    have hcook := cook_commentTo obj h ct.textNo (MiscGroup.not_isTimeItem_commentTo h)
      (fun item hitem => MICommentTo.continues_of_mem_additional (hextra.mem_iff.mp hitem))
      fun item hitem => (hstop item hitem).2
    rw [MICommentTo.foldl_add hextra] at hcook
    exact hcook
  | commentIn ci h =>
    have hcommentIn : ∀ type ∈ [MI_COMM_TO, MI_FOOTN_TO],
        type + 1 ∈ [MI_COMM_IN, MI_FOOTN_IN] := by decide
    obtain rfl : extra = [] := List.perm_nil.mp hextra
    rw [ofGroups_commentIn]
    exact cook_commentIn obj (hcommentIn _ h) ci.textNo _ raw

/-- Groups are cooked to what they say, in their order. -/
theorem cook_groups (obj : CookedMiscInfo) {groups : List MiscGroup} {raw : List RawMiscInfo}
    (h : raw ∈ (groups.map MiscGroup.items).prod) :
    cook obj raw = some (obj.append (ofGroups groups)) := by
  induction groups generalizing obj raw with
  | nil =>
    obtain rfl : raw = [] := h
    simp [cook, append, ofGroups]
  | cons g groups ih =>
    obtain ⟨_, ⟨extra, hextra, rfl⟩, raw', hraw', rfl⟩ := Language.mem_mul.mp h
    have hhead := MiscGroup.head?_of_mem_prod hraw'
    rw [List.cons_append, cook_group obj g hextra hhead, ih _ hraw']
    simp only [append, ofGroups, List.append_assoc, ← List.filterMap_append, List.singleton_append]

/-- **Cooking inverts grouping.** -/
theorem cook_items {obj : CookedMiscInfo} {raw : List RawMiscInfo} (h : raw ∈ obj.items) :
    cook {} raw = some obj := by
  obtain ⟨groups, rfl, hraw⟩ := h
  rw [cook_groups {} hraw]
  rfl

end CookedMiscInfo

end Pylyskom
