import Pylyskom.AsyncMessages

/-!
# Texts on the server

The texts that the server holds, and the changes that it announces by asynchronous messages.
A comment is recorded in both texts: in the comment-to list of the one and in the comment-in
list of the other.
-/

namespace Pylyskom

/-- The text-stat of each text that exists. -/
def Texts := ℕ → Option TextStat

namespace TextStat

/-- The texts that this one is a comment to, or that are comments to it. -/
def links (self : TextStat) : List ℕ :=
  self.miscInfo.commentToList.map MICommentTo.textNo ++
    self.miscInfo.commentInList.map MICommentIn.textNo

/-- The kind of item by which a commented text records a comment. -/
def commentInType (type : ℕ) : ℕ := if type = MI_FOOTN_TO then MI_FOOTN_IN else MI_COMM_IN

/-- Text `t` when `no` has been created with the given comment-to list. -/
def commentedBy (self : TextStat) (no : ℕ) (commentToList : List MICommentTo) (t : ℕ) :
    TextStat :=
  { self with
    miscInfo := { self.miscInfo with
      commentInList := self.miscInfo.commentInList ++
        (commentToList.filter fun ct => ct.textNo = t).map fun ct =>
          ⟨commentInType ct.type, no⟩ } }

/-- A text without its links to a text that is deleted. -/
def unlink (self : TextStat) (no : ℕ) : TextStat :=
  { self with
    miscInfo := { self.miscInfo with
      commentToList := self.miscInfo.commentToList.filter fun ct => ct.textNo ≠ no
      commentInList := self.miscInfo.commentInList.filter fun ci => ci.textNo ≠ no } }

def addRecipient (self : TextStat) (rcpt : MIRecipient) : TextStat :=
  { self with
    miscInfo := { self.miscInfo with
      recipientList := self.miscInfo.recipientList ++ [rcpt] } }

def subRecipient (self : TextStat) (confNo : ℕ) : TextStat :=
  { self with
    miscInfo := { self.miscInfo with
      recipientList := self.miscInfo.recipientList.filter fun rcpt => rcpt.recpt ≠ confNo } }

/-- A text that is not commented stays as it is. -/
theorem commentedBy_of_not_mem {self : TextStat} {no t : ℕ} {commentToList : List MICommentTo}
    (h : ∀ ct ∈ commentToList, ct.textNo ≠ t) :
    self.commentedBy no commentToList t = self := by
  have hnil : commentToList.filter (fun ct => ct.textNo = t) = [] := by
    rw [List.filter_eq_nil_iff]
    simpa using h
  unfold commentedBy
  rw [hnil, List.map_nil, List.append_nil]

/-- So does one that has no link to the deleted text. -/
theorem unlink_of_not_mem {self : TextStat} {no : ℕ} (h : no ∉ self.links) :
    self.unlink no = self := by
  unfold links at h
  rw [List.mem_append, not_or] at h
  have hto : self.miscInfo.commentToList.filter (fun ct => ct.textNo ≠ no) =
      self.miscInfo.commentToList := by
    rw [List.filter_eq_self]
    intro ct hct
    have hne : ct.textNo ≠ no := fun heq => h.1 (List.mem_map.mpr ⟨ct, hct, heq⟩)
    simpa using hne
  have hin : self.miscInfo.commentInList.filter (fun ci => ci.textNo ≠ no) =
      self.miscInfo.commentInList := by
    rw [List.filter_eq_self]
    intro ci hci
    have hne : ci.textNo ≠ no := fun heq => h.2 (List.mem_map.mpr ⟨ci, hci, heq⟩)
    simpa using hne
  unfold unlink
  rw [hto, hin]

end TextStat

namespace Texts

variable (self : Texts)

/-- A new text also becomes a comment in the texts that it comments. -/
def create (no : ℕ) (stat : TextStat) : Texts := fun t =>
  if t = no then some stat
  else (self t).map fun other => other.commentedBy no stat.miscInfo.commentToList t

def delete (no : ℕ) : Texts := fun t =>
  if t = no then none else (self t).map fun other => other.unlink no

def addRecipient (no : ℕ) (rcpt : MIRecipient) : Texts := fun t =>
  if t = no then (self t).map fun stat => stat.addRecipient rcpt else self t

def subRecipient (no confNo : ℕ) : Texts := fun t =>
  if t = no then (self t).map fun stat => stat.subRecipient confNo else self t

/-- The text exists, and has the recipients and the comment links of the value. -/
def Holds (t : ℕ) (value : TextStat) : Prop :=
  ∃ stat, self t = some stat ∧ stat.miscInfo = value.miscInfo

/-- Each comment is recorded in both texts. -/
structure Linked (texts : Texts) : Prop where
  commentTo : ∀ {t : ℕ} {a : TextStat}, texts t = some a → ∀ ct ∈ a.miscInfo.commentToList,
    ∃ b, texts ct.textNo = some b ∧ ∃ ci ∈ b.miscInfo.commentInList, ci.textNo = t
  commentIn : ∀ {t : ℕ} {a : TextStat}, texts t = some a → ∀ ci ∈ a.miscInfo.commentInList,
    ∃ b, texts ci.textNo = some b ∧ ∃ ct ∈ b.miscInfo.commentToList, ct.textNo = t

end Texts

/-- A change of the texts, with the message that announces it. -/
inductive TextChange (texts : Texts) : AsyncMessage → Texts → Prop
  | create {no : ℕ} {stat : TextStat} (unused : texts no = none)
      (uncommented : stat.miscInfo.commentInList = [])
      (exist : ∀ ct ∈ stat.miscInfo.commentToList, (texts ct.textNo).isSome) :
      TextChange texts (.newText no stat) (texts.create no stat)
  | delete {no : ℕ} {stat : TextStat} (found : texts no = some stat) :
      TextChange texts (.deletedText no stat) (texts.delete no)
  | addRecipient {no : ℕ} {rcpt : MIRecipient} (found : (texts no).isSome) :
      TextChange texts (.newRecipient no rcpt.recpt rcpt.type) (texts.addRecipient no rcpt)
  | subRecipient {no : ℕ} {stat : TextStat} {rcpt : MIRecipient} (found : texts no = some stat)
      (recipient : rcpt ∈ stat.miscInfo.recipientList) :
      TextChange texts (.subRecipient no rcpt.recpt rcpt.type) (texts.subRecipient no rcpt.recpt)

namespace Texts

variable {self : Texts}

/-- A change of one text that leaves its comment links. -/
private theorem Linked.update (h : self.Linked) {no : ℕ} {f : TextStat → TextStat}
    (hto : ∀ a, (f a).miscInfo.commentToList = a.miscInfo.commentToList)
    (hin : ∀ a, (f a).miscInfo.commentInList = a.miscInfo.commentInList) :
    Linked fun t => if t = no then (self t).map f else self t := by
  -- the same text, with the same links, was there before
  have hbefore : ∀ {t a}, (if t = no then (self t).map f else self t) = some a →
      ∃ b, self t = some b ∧ a.miscInfo.commentToList = b.miscInfo.commentToList ∧
        a.miscInfo.commentInList = b.miscInfo.commentInList := by
    intro t a ha
    split_ifs at ha
    · obtain ⟨b, hb, rfl⟩ := Option.map_eq_some_iff.mp ha
      exact ⟨b, hb, hto b, hin b⟩
    · exact ⟨a, ha, rfl, rfl⟩
  have hafter : ∀ {t b}, self t = some b → ∃ a,
      (if t = no then (self t).map f else self t) = some a ∧
        a.miscInfo.commentToList = b.miscInfo.commentToList ∧
        a.miscInfo.commentInList = b.miscInfo.commentInList := by
    intro t b hb
    rw [hb]
    split_ifs
    · exact ⟨f b, rfl, hto b, hin b⟩
    · exact ⟨b, rfl, rfl, rfl⟩
  constructor
  · intro t a ha ct hct
    obtain ⟨b, hb, hsame, -⟩ := hbefore ha
    obtain ⟨c, hc, ci, hci, hback⟩ := h.commentTo hb ct (hsame ▸ hct)
    obtain ⟨d, hd, -, hsame'⟩ := hafter hc
    exact ⟨d, hd, ci, hsame' ▸ hci, hback⟩
  · intro t a ha ci hci
    obtain ⟨b, hb, -, hsame⟩ := hbefore ha
    obtain ⟨c, hc, ct, hct, hback⟩ := h.commentIn hb ci (hsame ▸ hci)
    obtain ⟨d, hd, hsame', -⟩ := hafter hc
    exact ⟨d, hd, ct, hsame' ▸ hct, hback⟩

private theorem Linked.create (h : self.Linked) {no : ℕ} {stat : TextStat}
    (unused : self no = none) (uncommented : stat.miscInfo.commentInList = [])
    (exist : ∀ ct ∈ stat.miscInfo.commentToList, (self ct.textNo).isSome) :
    (self.create no stat).Linked := by
  have hold : ∀ {t a}, self t = some a → self.create no stat t =
      some (a.commentedBy no stat.miscInfo.commentToList t) := by
    intro t a ha
    have hne : t ≠ no := by
      rintro rfl
      rw [unused] at ha
      cases ha
    unfold Texts.create
    rw [if_neg hne, ha]
    rfl
  constructor
  · intro t a ha ct hct
    unfold Texts.create at ha
    split_ifs at ha with ht
    · -- the new text itself: its comments are recorded in the old texts
      obtain rfl := Option.some.inj ha
      obtain ⟨b, hb⟩ := Option.isSome_iff_exists.mp (exist ct hct)
      refine ⟨_, hold hb, ⟨TextStat.commentInType ct.type, no⟩, ?_, ht.symm⟩
      apply List.mem_append_right
      exact List.mem_map.mpr ⟨ct, by simpa using hct, rfl⟩
    · obtain ⟨b, hb, rfl⟩ := Option.map_eq_some_iff.mp ha
      obtain ⟨c, hc, ci, hci, hback⟩ := h.commentTo hb ct hct
      exact ⟨_, hold hc, ci, List.mem_append_left _ hci, hback⟩
  · intro t a ha ci hci
    unfold Texts.create at ha
    split_ifs at ha with ht
    · obtain rfl := Option.some.inj ha
      rw [uncommented] at hci
      cases hci
    · obtain ⟨b, hb, rfl⟩ := Option.map_eq_some_iff.mp ha
      rcases List.mem_append.mp hci with hci | hci
      · obtain ⟨c, hc, ct, hct, hback⟩ := h.commentIn hb ci hci
        exact ⟨_, hold hc, ct, hct, hback⟩
      · obtain ⟨ct, hct, rfl⟩ := List.mem_map.mp hci
        have hmem := List.mem_filter.mp hct
        exact ⟨stat, if_pos rfl, ct, hmem.1, by simpa using hmem.2⟩

private theorem Linked.delete (h : self.Linked) (no : ℕ) : (self.delete no).Linked := by
  have hold : ∀ {t a}, t ≠ no → self t = some a → self.delete no t = some (a.unlink no) := by
    intro t a hne ha
    unfold Texts.delete
    rw [if_neg hne, ha]
    rfl
  constructor
  · intro t a ha ct hct
    unfold Texts.delete at ha
    split_ifs at ha with ht
    obtain ⟨b, hb, rfl⟩ := Option.map_eq_some_iff.mp ha
    obtain ⟨hct, hne⟩ := List.mem_filter.mp hct
    obtain ⟨c, hc, ci, hci, hback⟩ := h.commentTo hb ct hct
    refine ⟨_, hold (by simpa using hne) hc, ci, ?_, hback⟩
    exact List.mem_filter.mpr ⟨hci, by simpa [hback] using ht⟩
  · intro t a ha ci hci
    unfold Texts.delete at ha
    split_ifs at ha with ht
    obtain ⟨b, hb, rfl⟩ := Option.map_eq_some_iff.mp ha
    obtain ⟨hci, hne⟩ := List.mem_filter.mp hci
    obtain ⟨c, hc, ct, hct, hback⟩ := h.commentIn hb ci hci
    refine ⟨_, hold (by simpa using hne) hc, ct, ?_, hback⟩
    exact List.mem_filter.mpr ⟨hct, by simpa [hback] using ht⟩

end Texts

/-- **Every change keeps the comments recorded in both texts.** -/
theorem TextChange.linked {texts texts' : Texts} {msg : AsyncMessage}
    (h : TextChange texts msg texts') (hlinked : texts.Linked) : texts'.Linked := by
  cases h with
  | create unused uncommented exist => exact hlinked.create unused uncommented exist
  | delete => exact hlinked.delete _
  | addRecipient => exact hlinked.update (fun _ => rfl) fun _ => rfl
  | subRecipient => exact hlinked.update (fun _ => rfl) fun _ => rfl

end Pylyskom
