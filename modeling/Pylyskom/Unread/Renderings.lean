import Mathlib.Data.List.Sort
import Pylyskom.TextReads
import Pylyskom.Unread.Window

/-!
# Sparse and dense text mappings

A server may write the same texts as a sparse block, which lists them, or as a dense block,
which gives one number to each local number from its first one on and 0 where there is no
text. This file proves that `TextMapping.parse` makes the same texts of both, in its list and
in its dictionary.
-/

namespace Pylyskom

/-- The global number of a local number, or 0 if there is no text. -/
def globalAt (pairs : List (ℕ × ℕ)) (localNumber : ℕ) : ℕ := (pairs.lookup localNumber).getD 0

/-- The blocks that a server may write for some texts: a sparse one, or a dense one with
local numbers from `first` on that cover all the texts. -/
inductive Renders (pairs : List (ℕ × ℕ)) : TextMappingBlock → Prop
  | sparse : Renders pairs (.sparse (pairs.map fun p => ⟨p.1, p.2⟩))
  | dense (first length : ℕ) (hfirst : ∀ p ∈ pairs, first ≤ p.1)
      (hlength : ∀ p ∈ pairs, p.1 < first + length) :
      Renders pairs (.dense first ((List.range' first length).map (globalAt pairs)))

/-- A parsed mapping has exactly the given texts, in its list and in its dictionary. -/
structure TextMapping.Holds (obj : TextMapping) (pairs : List (ℕ × ℕ)) : Prop where
  list : obj.list.filter (fun p => p.2 ≠ 0) = pairs
  items : obj.dict.items = obj.list
  get? : ∀ localNumber globalNumber, globalNumber ≠ 0 →
    (obj.dict.get? localNumber = some globalNumber ↔ (localNumber, globalNumber) ∈ pairs)

variable {pairs : List (ℕ × ℕ)}

/-- With each local number once, a pair gives its local number its global one. -/
theorem globalAt_eq_of_mem (hsorted : pairs.Pairwise fun p q => p.1 < q.1) {p : ℕ × ℕ}
    (hp : p ∈ pairs) : globalAt pairs p.1 = p.2 := by
  induction pairs with
  | nil => cases hp
  | cons q pairs ih =>
    obtain ⟨hq, hrest⟩ := List.pairwise_cons.mp hsorted
    rw [globalAt, List.lookup_cons]
    rcases List.mem_cons.mp hp with rfl | hp
    · simp
    · have hne : (p.1 == q.1) = false := beq_false_of_ne (Nat.ne_of_gt (hq p hp))
      rw [hne]
      exact ih hrest hp

/-- A local number with a global number other than 0 is in a pair. -/
theorem mem_of_globalAt_ne_zero {localNumber : ℕ} (h : globalAt pairs localNumber ≠ 0) :
    (localNumber, globalAt pairs localNumber) ∈ pairs := by
  rw [globalAt] at h ⊢
  cases hlookup : pairs.lookup localNumber with
  | none => exact absurd (by rw [hlookup]; rfl) h
  | some globalNumber =>
    obtain ⟨before, after, rfl, -⟩ := List.lookup_eq_some_iff.mp hlookup
    simp

/-- The list of a mapping is in order in both renderings. -/
theorem Renders.pairwise_list {obj : TextMapping} (h : Renders pairs obj.block)
    (hsorted : pairs.Pairwise fun p q => p.1 < q.1) :
    obj.list.Pairwise fun p q => p.1 < q.1 := by
  obtain ⟨rangeBegin, rangeEnd, laterTextsExists, block⟩ := obj
  cases h with
  | sparse => simpa [TextMapping.list, List.pairwise_map] using hsorted
  | dense first length hfirst hlength =>
    simp only [TextMapping.list, LocalTexts.denseList_map_range', List.pairwise_map]
    exact List.pairwise_lt_range'

/-- The pairs of the list with a global number are the texts in both renderings. -/
theorem Renders.mem_list_iff {obj : TextMapping} (h : Renders pairs obj.block)
    (hsorted : pairs.Pairwise fun p q => p.1 < q.1) (hpos : ∀ p ∈ pairs, 0 < p.2)
    {p : ℕ × ℕ} : p ∈ obj.list ∧ p.2 ≠ 0 ↔ p ∈ pairs := by
  obtain ⟨rangeBegin, rangeEnd, laterTextsExists, block⟩ := obj
  cases h with
  | sparse =>
    have hlist : (pairs.map fun p => TextNumberPair.mk p.1 p.2).map
        (fun tnp => (tnp.localNumber, tnp.globalNumber)) = pairs := by
      rw [List.map_map]
      exact List.map_id pairs
    simp only [TextMapping.list, hlist]
    exact ⟨fun h => h.1, fun hp => ⟨hp, Nat.ne_of_gt (hpos p hp)⟩⟩
  | dense first length hfirst hlength =>
    simp only [TextMapping.list, LocalTexts.denseList_map_range', List.mem_map, List.mem_range'_1]
    constructor
    · rintro ⟨⟨localNumber, -, rfl⟩, hne⟩
      exact mem_of_globalAt_ne_zero hne
    · intro hp
      have hglobal : globalAt pairs p.1 = p.2 := globalAt_eq_of_mem hsorted hp
      exact ⟨⟨p.1, ⟨hfirst p hp, hlength p hp⟩, by rw [hglobal]⟩, Nat.ne_of_gt (hpos p hp)⟩

/-- Whatever the rendering, the mapping has the texts. -/
theorem Renders.holds {obj : TextMapping} (h : Renders pairs obj.block)
    (hsorted : pairs.Pairwise fun p q => p.1 < q.1) (hpos : ∀ p ∈ pairs, 0 < p.2) :
    obj.Holds pairs := by
  have hordered := h.pairwise_list hsorted
  have hmem {p : ℕ × ℕ} := h.mem_list_iff hsorted hpos (p := p)
  have hitems : obj.dict.items = obj.list := by
    have hkeys : (obj.list.map Prod.fst).Nodup :=
      (List.pairwise_map.mpr hordered).imp fun hlt => Nat.ne_of_lt hlt
    exact Dict.items_foldl_set ∅ hkeys
  refine ⟨?_, hitems, fun localNumber globalNumber hne => ?_⟩
  · have hperm : (obj.list.filter fun p => p.2 ≠ 0).Perm pairs := by
      have hnodup {l : List (ℕ × ℕ)} (hl : l.Pairwise fun p q => p.1 < q.1) : l.Nodup :=
        hl.imp fun hlt heq => Nat.ne_of_lt hlt (congrArg Prod.fst heq)
      rw [List.perm_ext_iff_of_nodup ((hnodup hordered).filter _) (hnodup hsorted)]
      intro p
      rw [List.mem_filter, decide_eq_true_eq]
      exact hmem
    exact hperm.eq_of_pairwise (fun p q _ _ hlt hgt => absurd hlt (Nat.lt_asymm hgt))
      (hordered.filter _) hsorted
  · rw [Dict.get?_eq_some_iff, hitems, ← hmem]
    exact (and_iff_left hne).symm

/-- The loops over unread texts get the same global numbers from both renderings. -/
theorem TextMapping.Holds.texts_eq {obj : TextMapping} (h : obj.Holds pairs) :
    obj.texts = pairs.map Prod.snd := by
  rw [TextMapping.texts, List.filter_map, ← h.list]
  rfl

/-- **A sparse and a dense text mapping of the same texts are parsed to the same texts**, and
the bytes behind the array stay unread. -/
theorem TextMapping.parse_rendering (hsorted : pairs.Pairwise fun p q => p.1 < q.1)
    (hpos : ∀ p ∈ pairs, 0 < p.2) (rangeBegin rangeEnd laterTextsExists : ℕ)
    {block : TextMappingBlock} (h : Renders pairs block) :
    ∀ ts ∈ TextMapping.text { rangeBegin, rangeEnd, laterTextsExists, block },
      ∀ rest, ∃ obj, TextMapping.parse.run (spacing.text ts ++ '\n'.toUInt8 :: rest) =
          .returned obj ('\n'.toUInt8 :: rest) ∧
        obj = { rangeBegin, rangeEnd, laterTextsExists, block } ∧ obj.Holds pairs := by
  intro ts hts rest
  obtain ⟨-, hrun⟩ := TextMapping.reads _ ts hts
  have hparse := hrun [] (fun c hc => absurd hc List.not_mem_nil) '\n'.toUInt8 (by decide) rest
  exact ⟨_, hparse, rfl, Renders.holds h hsorted hpos⟩

/-- Two texts with a deleted one between them, in a dense block that begins before the first. -/
theorem TextMapping.parse_rendering_two :
    ∃ obj, TextMapping.parse.run (ascii "2 7 1 1 2 4 \x7b 0 17 0 20 \x7d\n:5") =
        .returned obj (ascii "\n:5") ∧
      obj = { rangeBegin := 2, rangeEnd := 7, laterTextsExists := 1,
              block := .dense 2 [0, 17, 0, 20] } ∧
      obj.Holds [(3, 17), (5, 20)] := by
  have h : Renders [(3, 17), (5, 20)] (.dense 2 [0, 17, 0, 20]) :=
    Renders.dense 2 4 (by decide) (by decide)
  have hnumbers := mem_prod_token [decimal 0, decimal 17, decimal 0, decimal 20]
  have harray : decimal 4 :: ['{'.toUInt8] ::
      ([decimal 0, decimal 17, decimal 0, decimal 20] ++ [['}'.toUInt8]]) ∈
      Array.text Int.text [0, 17, 0, 20] :=
    Or.inl ⟨_, rfl, _, ⟨_, rfl, _, ⟨_, hnumbers, _, rfl, rfl⟩, rfl⟩, rfl⟩
  have hblock : decimal 1 :: decimal 2 :: decimal 4 :: ['{'.toUInt8] ::
      ([decimal 0, decimal 17, decimal 0, decimal 20] ++ [['}'.toUInt8]]) ∈
      TextMappingBlock.text (.dense 2 [0, 17, 0, 20]) :=
    ⟨_, rfl, _, ⟨_, rfl, _, ⟨_, harray, _, rfl, rfl⟩, rfl⟩, rfl⟩
  have htext : decimal 2 :: decimal 7 :: decimal 1 :: decimal 1 :: decimal 2 :: decimal 4 ::
      ['{'.toUInt8] :: ([decimal 0, decimal 17, decimal 0, decimal 20] ++ [['}'.toUInt8]]) ∈
      TextMapping.text { rangeBegin := 2, rangeEnd := 7, laterTextsExists := 1,
                         block := .dense 2 [0, 17, 0, 20] } :=
    ⟨_, rfl, _, ⟨_, rfl, _, ⟨_, rfl, _, ⟨_, hblock, _, rfl, rfl⟩, rfl⟩, rfl⟩, rfl⟩
  exact TextMapping.parse_rendering (by decide) (by decide) 2 7 1 h _ htext (ascii ":5")

end Pylyskom
