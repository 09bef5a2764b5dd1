import Pylyskom.MiscInfo
import Pylyskom.Collections.Lists

/-!
# The grammar of misc-info

Which arrays of misc-info items `CookedMiscInfo.parse` accepts, and what it makes of them. A
group may hold several items of one type, and then the last one counts.
-/

namespace Pylyskom

/-- The number in the last item of a type, if there is one. -/
def lastNumber (type : ℕ) (items : List RawMiscInfo) : Option ℕ :=
  (items.filterMap fun item =>
    match item with
    | .number t data _ => if t = type then some data else none
    | .time .. => none).getLast?

/-- The time in the last item of a type, if there is one. -/
def lastTime (type : ℕ) (items : List RawMiscInfo) : Option Time :=
  (items.filterMap fun item =>
    match item with
    | .time t data _ => if t = type then some data else none
    | .number .. => none).getLast?

/-- A group of items as it is received. -/
inductive RawGroup : Type
  | recipient (type recpt : ℕ) (extra : List RawMiscInfo)
      (isRecipient : type ∈ [MI_RECPT, MI_CC_RECPT, MI_BCC_RECPT])
      (continues : ∀ item ∈ extra,
        item.type ∈ [MI_LOC_NO, MI_REC_TIME, MI_SENT_BY, MI_SENT_AT])
  | commentTo (type textNo : ℕ) (extra : List RawMiscInfo)
      (isCommentTo : type ∈ [MI_COMM_TO, MI_FOOTN_TO])
      (continues : ∀ item ∈ extra, item.type ∈ [MI_SENT_BY, MI_SENT_AT])
  | commentIn (type textNo : ℕ) (isCommentIn : type ∈ [MI_COMM_IN, MI_FOOTN_IN])

namespace RawGroup

theorem not_isTimeItem {type : ℕ} (h : type ∈ [MI_RECPT, MI_CC_RECPT, MI_BCC_RECPT] ++
    [MI_COMM_TO, MI_FOOTN_TO] ++ [MI_COMM_IN, MI_FOOTN_IN]) : ¬ isTimeItem type := by
  revert type
  decide

/-- The items of a group, in their order. -/
def items : RawGroup → List RawMiscInfo
  | recipient type recpt extra h _ =>
    .number type recpt (not_isTimeItem (List.mem_append_left _ (List.mem_append_left _ h))) :: extra
  | commentTo type textNo extra h _ =>
    .number type textNo (not_isTimeItem (List.mem_append_left _ (List.mem_append_right _ h))) ::
      extra
  | commentIn type textNo h =>
    [.number type textNo (not_isTimeItem (List.mem_append_right _ h))]

def recipient? : RawGroup → Option MIRecipient
  | recipient type recpt extra _ _ => some
      { type, recpt
        locNo := lastNumber MI_LOC_NO extra
        recTime := lastTime MI_REC_TIME extra
        sentBy := lastNumber MI_SENT_BY extra
        sentAt := lastTime MI_SENT_AT extra }
  | _ => none

def commentTo? : RawGroup → Option MICommentTo
  | commentTo type textNo extra _ _ => some
      { type, textNo
        sentBy := lastNumber MI_SENT_BY extra
        sentAt := lastTime MI_SENT_AT extra }
  | _ => none

/-- The type of a link is that of the comment-to item for the same link. -/
def commentIn? : RawGroup → Option MICommentIn
  | commentIn type textNo _ => some
      { type := if type = MI_COMM_IN then MI_COMM_TO else MI_FOOTN_TO, textNo }
  | _ => none

end RawGroup

/-- What a sequence of groups says: one object for each group, in their order. -/
def CookedMiscInfo.ofRawGroups (groups : List RawGroup) : CookedMiscInfo where
  recipientList := groups.filterMap RawGroup.recipient?
  commentToList := groups.filterMap RawGroup.commentTo?
  commentInList := groups.filterMap RawGroup.commentIn?

/-! ## The items of a group -/

theorem MIRecipient.continues_iff {item : RawMiscInfo} : Continues item ↔
    item.type ∈ [MI_LOC_NO, MI_REC_TIME, MI_SENT_BY, MI_SENT_AT] := by
  cases item with
  | number type data h =>
    simp only [isTimeItem, not_or] at h
    simp [Continues, RawMiscInfo.type, h]
  | time type data h =>
    rcases h with rfl | rfl
    · simp [Continues, RawMiscInfo.type]
    · simp [Continues, RawMiscInfo.type]

theorem MICommentTo.continues_iff {item : RawMiscInfo} : Continues item ↔
    item.type ∈ [MI_SENT_BY, MI_SENT_AT] := by
  cases item with
  | number type data h =>
    simp only [isTimeItem, not_or] at h
    simp [Continues, RawMiscInfo.type, h]
  | time type data h =>
    have hne : MI_SENT_BY ≠ MI_REC_TIME ∧ MI_SENT_BY ≠ MI_SENT_AT := by decide
    rcases h with rfl | rfl
    · simp [Continues, RawMiscInfo.type, hne.1.symm]
    · simp [Continues, RawMiscInfo.type]

theorem lastNumber_concat (type : ℕ) (extra : List RawMiscInfo) (t data : ℕ) (h : ¬ isTimeItem t) :
    lastNumber type (extra ++ [.number t data h]) =
      if t = type then some data else lastNumber type extra := by
  unfold lastNumber
  by_cases heq : t = type
  · simp [List.filterMap_append, heq]
  · simp [List.filterMap_append, heq]

theorem lastNumber_concat_time (type : ℕ) (extra : List RawMiscInfo) (t : ℕ) (data : Time)
    (h : isTimeItem t) :
    lastNumber type (extra ++ [.time t data h]) = lastNumber type extra := by
  simp [lastNumber, List.filterMap_append]

theorem lastTime_concat (type : ℕ) (extra : List RawMiscInfo) (t : ℕ) (data : Time)
    (h : isTimeItem t) : lastTime type (extra ++ [.time t data h]) =
      if t = type then some data else lastTime type extra := by
  unfold lastTime
  by_cases heq : t = type
  · simp [List.filterMap_append, heq]
  · simp [List.filterMap_append, heq]

theorem lastTime_concat_number (type : ℕ) (extra : List RawMiscInfo) (t data : ℕ)
    (h : ¬ isTimeItem t) :
    lastTime type (extra ++ [.number t data h]) = lastTime type extra := by
  simp [lastTime, List.filterMap_append]

/-- The last item of each type counts. -/
theorem MIRecipient.foldl_add_eq (type recpt : ℕ) {extra : List RawMiscInfo}
    (h : ∀ item ∈ extra, Continues item) :
    extra.foldl add { type, recpt } =
      { type, recpt
        locNo := lastNumber MI_LOC_NO extra
        recTime := lastTime MI_REC_TIME extra
        sentBy := lastNumber MI_SENT_BY extra
        sentAt := lastTime MI_SENT_AT extra } := by
  induction extra using List.reverseRecOn with
  | nil => rfl
  | append_singleton extra item ih =>
    rw [List.foldl_append, ih fun x hx => h x (List.mem_append_left _ hx)]
    have hitem := h item (by simp)
    cases item with
    | number t data ht =>
      simp only [lastNumber_concat, lastTime_concat_number]
      rcases hitem with rfl | rfl
      · rfl
      · rfl
    | time t data ht =>
      simp only [lastTime_concat, lastNumber_concat_time]
      rcases ht with rfl | rfl
      · rfl
      · rfl

theorem MICommentTo.foldl_add_eq (type textNo : ℕ) {extra : List RawMiscInfo}
    (h : ∀ item ∈ extra, Continues item) :
    extra.foldl add { type, textNo } =
      { type, textNo
        sentBy := lastNumber MI_SENT_BY extra
        sentAt := lastTime MI_SENT_AT extra } := by
  induction extra using List.reverseRecOn with
  | nil => rfl
  | append_singleton extra item ih =>
    rw [List.foldl_append, ih fun x hx => h x (List.mem_append_left _ hx)]
    have hitem := h item (by simp)
    cases item with
    | number t data ht =>
      simp only [lastNumber_concat, lastTime_concat_number]
      obtain rfl : t = MI_SENT_BY := hitem
      rfl
    | time t data ht =>
      simp only [lastTime_concat, lastNumber_concat_time]
      obtain rfl : t = MI_SENT_AT := hitem
      rfl

/-! ## Accepted arrays -/

namespace CookedMiscInfo

theorem append_assoc (obj other third : CookedMiscInfo) :
    (obj.append other).append third = obj.append (other.append third) := by
  simp only [append, List.append_assoc]

theorem ofRawGroups_cons (g : RawGroup) (groups : List RawGroup) :
    ofRawGroups (g :: groups) = (ofRawGroups [g]).append (ofRawGroups groups) := by
  simp only [ofRawGroups, append, ← List.filterMap_append, List.singleton_append]

/-- The items of a sequence of groups start, if at all, with an item that continues no group. -/
theorem not_continues_of_head? {groups : List RawGroup} {item : RawMiscInfo}
    (h : item ∈ (groups.flatMap RawGroup.items).head?) :
    ¬ MIRecipient.Continues item ∧ ¬ MICommentTo.Continues item := by
  have hall : ∀ type ∈ [MI_RECPT, MI_CC_RECPT, MI_BCC_RECPT] ++ [MI_COMM_TO, MI_FOOTN_TO] ++
      [MI_COMM_IN, MI_FOOTN_IN], type ∉ [MI_LOC_NO, MI_REC_TIME, MI_SENT_BY, MI_SENT_AT] ∧
        type ∉ [MI_SENT_BY, MI_SENT_AT] := by decide
  rw [MIRecipient.continues_iff, MICommentTo.continues_iff]
  cases groups with
  | nil => cases h
  | cons g groups =>
    cases g with
    | recipient type recpt extra hg hextra =>
      obtain rfl := Option.some.inj h
      exact hall type (List.mem_append_left _ (List.mem_append_left _ hg))
    | commentTo type textNo extra hg hextra =>
      obtain rfl := Option.some.inj h
      exact hall type (List.mem_append_left _ (List.mem_append_right _ hg))
    | commentIn type textNo hg =>
      obtain rfl := Option.some.inj h
      exact hall type (List.mem_append_right _ hg)

/-- Groups are accepted, and nothing in them is lost. -/
theorem cook_rawGroups (obj : CookedMiscInfo) (groups : List RawGroup) :
    cook obj (groups.flatMap RawGroup.items) = some (obj.append (ofRawGroups groups)) := by
  induction groups generalizing obj with
  | nil => simp [cook, append, ofRawGroups]
  | cons g groups ih =>
    have hhead : ∀ item ∈ (groups.flatMap RawGroup.items).head?,
        ¬ MIRecipient.Continues item ∧ ¬ MICommentTo.Continues item :=
      fun _ hitem => not_continues_of_head? hitem
    rw [ofRawGroups_cons, ← append_assoc, ← ih, List.flatMap_cons]
    cases g with
    | recipient type recpt extra hg hextra =>
      have hcontinues : ∀ item ∈ extra, MIRecipient.Continues item := fun item hitem =>
        MIRecipient.continues_iff.mpr (hextra item hitem)
      have hcook := cook_recipient obj hg recpt (RawGroup.not_isTimeItem
        (List.mem_append_left _ (List.mem_append_left _ hg))) hcontinues
        fun item hitem => (hhead item hitem).1
      rw [MIRecipient.foldl_add_eq type recpt hcontinues] at hcook
      exact hcook
    | commentTo type textNo extra hg hextra =>
      have hcontinues : ∀ item ∈ extra, MICommentTo.Continues item := fun item hitem =>
        MICommentTo.continues_iff.mpr (hextra item hitem)
      have hcook := cook_commentTo obj hg textNo (RawGroup.not_isTimeItem
        (List.mem_append_left _ (List.mem_append_right _ hg))) hcontinues
        fun item hitem => (hhead item hitem).2
      rw [MICommentTo.foldl_add_eq type textNo hcontinues] at hcook
      exact hcook
    | commentIn type textNo hg =>
      have hcook := cook_commentIn obj hg textNo (RawGroup.not_isTimeItem
        (List.mem_append_right _ hg)) (groups.flatMap RawGroup.items)
      have htype : ∀ type ∈ [MI_COMM_IN, MI_FOOTN_IN],
          type - 1 = if type = MI_COMM_IN then MI_COMM_TO else MI_FOOTN_TO := by decide
      rw [htype type hg] at hcook
      exact hcook

/-- The items of some types at the front of a list, and the rest of it. -/
theorem exists_extra (types : List ℕ) (raw : List RawMiscInfo) :
    ∃ extra rest, raw = extra ++ rest ∧ (∀ item ∈ extra, item.type ∈ types) ∧
      ∀ item ∈ rest.head?, item.type ∉ types := by
  obtain ⟨extra, rest, heq, hextra, hrest⟩ :=
    exists_front (fun item => types.contains item.type) raw
  refine ⟨extra, rest, heq, fun item hitem => by simpa using hextra item hitem, ?_⟩
  rcases hrest with rfl | ⟨item, tail, rfl, hitem⟩
  · intro item hitem
    cases hitem
  · intro item' hitem'
    obtain rfl := Option.some.inj hitem'
    simpa using hitem

/-- What is accepted is a sequence of groups. -/
theorem rawGroups_of_cook {obj result : CookedMiscInfo} {raw : List RawMiscInfo}
    (h : cook obj raw = some result) :
    ∃ groups : List RawGroup, groups.flatMap RawGroup.items = raw := by
  induction hlen : raw.length using Nat.strongRecOn generalizing obj raw with
  | ind n ih =>
    match raw with
    | [] => exact ⟨[], rfl⟩
    | .time _ _ _ :: _ =>
      rw [cook] at h
      cases h
    | .number type data isNumber :: raw =>
      rw [List.length_cons] at hlen
      by_cases hrecipient : type ∈ [MI_RECPT, MI_CC_RECPT, MI_BCC_RECPT]
      · obtain ⟨extra, rest, rfl, hextra, hrest⟩ :=
          exists_extra [MI_LOC_NO, MI_REC_TIME, MI_SENT_BY, MI_SENT_AT] raw
        rw [cook_recipient obj hrecipient data isNumber
          (fun item hitem => MIRecipient.continues_iff.mpr (hextra item hitem))
          fun item hitem => mt MIRecipient.continues_iff.mp (hrest item hitem)] at h
        rw [List.length_append] at hlen
        obtain ⟨groups, rfl⟩ := ih rest.length (by omega) h rfl
        exact ⟨.recipient type data extra hrecipient hextra :: groups, rfl⟩
      by_cases hcommentTo : type ∈ [MI_COMM_TO, MI_FOOTN_TO]
      · obtain ⟨extra, rest, rfl, hextra, hrest⟩ := exists_extra [MI_SENT_BY, MI_SENT_AT] raw
        rw [cook_commentTo obj hcommentTo data isNumber
          (fun item hitem => MICommentTo.continues_iff.mpr (hextra item hitem))
          fun item hitem => mt MICommentTo.continues_iff.mp (hrest item hitem)] at h
        rw [List.length_append] at hlen
        obtain ⟨groups, rfl⟩ := ih rest.length (by omega) h rfl
        exact ⟨.commentTo type data extra hcommentTo hextra :: groups, rfl⟩
      by_cases hcommentIn : type ∈ [MI_COMM_IN, MI_FOOTN_IN]
      · rw [cook_commentIn obj hcommentIn data isNumber] at h
        obtain ⟨groups, rfl⟩ := ih raw.length (by omega) h rfl
        exact ⟨.commentIn type data hcommentIn :: groups, rfl⟩
      · rw [cook, if_neg hrecipient, if_neg hcommentTo, if_neg hcommentIn] at h
        cases h

/-- The items are those of a sequence of groups exactly if they are accepted. -/
theorem cook_eq_some_iff {result : CookedMiscInfo} {raw : List RawMiscInfo} :
    cook {} raw = some result ↔
      ∃ groups : List RawGroup, groups.flatMap RawGroup.items = raw ∧
        result = ofRawGroups groups := by
  constructor
  · intro h
    obtain ⟨groups, rfl⟩ := rawGroups_of_cook h
    rw [cook_rawGroups] at h
    exact ⟨groups, rfl, (Option.some.inj h).symm⟩
  · rintro ⟨groups, rfl, rfl⟩
    exact cook_rawGroups {} groups

/-- **Misc-info is parsed exactly if its items form groups.** Then there is one object for
each group, with the last item of each type in it; otherwise it is a `ProtocolError`. -/
theorem parse_groups (raw : List RawMiscInfo) (bytes rest : Bytes)
    (h : ArrayRawMiscInfo.parse.run bytes = .returned raw rest) :
    (∀ obj, parse.run bytes = .returned obj rest ↔
      ∃ groups : List RawGroup, groups.flatMap RawGroup.items = raw ∧ obj = ofRawGroups groups) ∧
    ((¬ ∃ groups : List RawGroup, groups.flatMap RawGroup.items = raw) →
      parse.run bytes = .raised (.localError (.protocolError none)) rest) := by
  constructor
  · intro obj
    rw [← cook_eq_some_iff, parse, Reader.run_bind, h, Outcome.andThen_returned]
    cases hcook : cook {} raw with
    | none => simp [protocolError]
    | some result => simp [eq_comm]
  · intro hnot
    have hcook : cook {} raw = none := by
      rw [Option.eq_none_iff_forall_not_mem]
      intro result hresult
      exact hnot (rawGroups_of_cook hresult)
    rw [parse, Reader.run_bind, h, Outcome.andThen_returned, hcook]
    rfl

/-- A recipient with two local numbers, and a link from a comment. -/
theorem parse_groups_twice :
    let bytes := ascii "4 { 1 7 6 2 6 3 3 9 }"
    let raw : List RawMiscInfo :=
      [.number 1 7 (by decide), .number 6 2 (by decide), .number 6 3 (by decide),
        .number 3 9 (by decide)]
    ArrayRawMiscInfo.parse.run bytes = .returned raw [] ∧
    (∀ obj, parse.run bytes = .returned obj [] ↔
      ∃ groups : List RawGroup, groups.flatMap RawGroup.items = raw ∧ obj = ofRawGroups groups) ∧
    ((¬ ∃ groups : List RawGroup, groups.flatMap RawGroup.items = raw) →
      parse.run bytes = .raised (.localError (.protocolError none)) []) :=
  ⟨by decide, parse_groups _ _ _ (by decide)⟩

end CookedMiscInfo

end Pylyskom
