import Pylyskom.Protocol
import Pylyskom.Strings.Codecs
import Pylyskom.Collections.Dict

/-!
# User areas

The coding of user areas in `utils.py`. A user area is a Hollerith string with the names
of the blocks, followed by one Hollerith string for each block.
-/

namespace Pylyskom

/-- Python code with loops: `none` when the fuel does not suffice for all of them. -/
abbrev Loops := ExceptT Exn Option

/-- The first loop of `parse_hollerith_string`. At the end of the string `c` is the empty
byte string, which is in every `bytearray`, and stays so in all further iterations. -/
def skipWhitespace : (fuel : ℕ) → Bytes → Option Bytes
  | 0, _ => none
  | fuel + 1, [] => skipWhitespace fuel []
  | fuel + 1, c :: hstring =>
    if whitespace.contains c then skipWhitespace fuel hstring else some (c :: hstring)

/-- The second loop, up to the first byte that is no digit. At the end of the string
`ord(c)` raises. -/
def parseLength (length : ℕ) : Bytes → Except Exn (ℕ × UInt8 × Bytes)
  | [] => .error (.builtinError .typeError)
  | c :: hstring =>
    if digits.contains c then parseLength (length * 10 + (c.toNat - ord0)) hstring
    else .ok (length, c, hstring)

/-- `hstring` may be `None`, and then so are both results. -/
def parseHollerithString (fuel : ℕ) : Option Bytes → Loops (Option Bytes × Option Bytes)
  | none => return (none, none)
  | some [] => return (none, some [])
  | some hstring =>
    match skipWhitespace fuel hstring with
    | none => ExceptT.mk none
    | some hstring =>
      match parseLength 0 hstring with
      | .error e => throw e
      | .ok (length, c, hstring) =>
        if c ≠ 'H'.toUInt8 then
          throw (.builtinError (.exception "Not a valid hollerith string".toList))
        else return (some (hstring.take length), some (hstring.drop length))

/-- `to_hollerith_string`, which asserts that it gets a byte string. -/
def toHollerithString : Option Bytes → Except Exn Bytes
  | some s => .ok (toHstring s)
  | none => .error (.builtinError .assertionError)

/-- The loop of `parse_block_names`. It ends at the end of the string and at an empty name. -/
def parseBlockNames : (fuel : ℕ) → Option Bytes → Loops (List Bytes)
  | 0, _ => ExceptT.mk none
  | fuel + 1, hstring => do
    let (hBlockName, hstring) ← parseHollerithString fuel hstring
    match hBlockName with
    | none => return []
    | some [] => return []
    | some blockName => return blockName :: (← parseBlockNames fuel hstring)

/-- The loop of `parse_blocks`, with the blocks parsed so far. -/
def parseBlocks (fuel : ℕ) (hstring : Option Bytes) (blocks : Dict Bytes (Option Bytes)) :
    List Bytes → Loops (Dict Bytes (Option Bytes))
  | [] => return blocks
  | blockName :: blockNames => do
    let (hBlock, hstring) ← parseHollerithString fuel hstring
    parseBlocks fuel hstring (blocks.set blockName hBlock) blockNames

/-- Decodes the user area to a dictionary where the keys are the block names. A block for
which nothing is left has the value `None`. -/
def decodeUserArea (fuel : ℕ) (userArea : Bytes) : Loops (Dict Bytes (Option Bytes)) := do
  let (hBlockNames, hBlocks) ← parseHollerithString fuel (some userArea)
  let blockNames ← parseBlockNames fuel hBlockNames
  parseBlocks fuel hBlocks ∅ blockNames

/-- The loop of `encode_user_area` over the items in the order of their sorted keys. -/
def encodeBlocks : List (Bytes × Option Bytes) → Except Exn (Bytes × Bytes)
  | [] => .ok ([], [])
  | (blockName, block) :: blocks => do
    let hBlock ← toHollerithString block
    let (hBlockNames, hBlocks) ← encodeBlocks blocks
    return (ascii " " ++ toHstring blockName ++ hBlockNames, ascii " " ++ hBlock ++ hBlocks)

/-- The items of a dictionary in the order of their keys. -/
def sortedItems {ν : Type} (blocks : Dict Bytes ν) : List (Bytes × ν) :=
  blocks.items.mergeSort fun p q => p.1 ≤ q.1

/-- Encodes a dictionary to a user area. The block names will be sorted alphabetically. -/
def encodeUserArea (blocks : Dict Bytes (Option Bytes)) : Except Exn Bytes := do
  let (hBlockNames, hBlocks) ← encodeBlocks (sortedItems blocks)
  return toHstring hBlockNames ++ hBlocks

/-! ## What is encoded is decoded again -/

theorem skipWhitespace_append {fuel : ℕ} {pre : Bytes}
    (hpre : ∀ c ∈ pre, whitespace.contains c = true) {c : UInt8}
    (hc : whitespace.contains c = false) (hstring : Bytes) (hfuel : pre.length < fuel) :
    skipWhitespace fuel (pre ++ c :: hstring) = some (c :: hstring) := by
  induction pre generalizing fuel with
  | nil =>
    obtain ⟨fuel, rfl⟩ : ∃ n, fuel = n + 1 := ⟨fuel - 1, by simp at hfuel; omega⟩
    simp only [List.nil_append, skipWhitespace, hc, Bool.false_eq_true, if_false]
  | cons w pre ih =>
    obtain ⟨fuel, rfl⟩ : ∃ n, fuel = n + 1 := ⟨fuel - 1, by simp at hfuel; omega⟩
    have hw := hpre w List.mem_cons_self
    have hlen : pre.length < fuel := Nat.lt_of_succ_lt_succ hfuel
    have hrest := ih (fun x hx => hpre x (List.mem_cons_of_mem w hx)) hlen
    simp only [List.cons_append, skipWhitespace, hw, if_true, hrest]

theorem parseLength_append {cs : Bytes} (hcs : ∀ c ∈ cs, digits.contains c = true) {d : UInt8}
    (hd : digits.contains d = false) (length : ℕ) (hstring : Bytes) :
    parseLength length (cs ++ d :: hstring) =
      .ok (cs.foldl (fun n c => n * 10 + (c.toNat - ord0)) length, d, hstring) := by
  induction cs generalizing length with
  | nil =>
    simp only [List.nil_append, parseLength, hd, Bool.false_eq_true, if_false, List.foldl_nil]
  | cons c cs ih =>
    have hc := hcs c List.mem_cons_self
    have hrest := ih fun x hx => hcs x (List.mem_cons_of_mem c hx)
    simp only [List.cons_append, parseLength, hc, if_true, hrest, List.foldl_cons]

/-- A Hollerith string is parsed up to its end. -/
theorem parseHollerithString_toHstring {fuel : ℕ} {pre : Bytes}
    (hpre : ∀ c ∈ pre, whitespace.contains c = true) (s rest : Bytes)
    (hfuel : pre.length < fuel) :
    parseHollerithString fuel (some (pre ++ toHstring s ++ rest)) =
      pure (some s, some rest) := by
  obtain ⟨c, cs, hdec⟩ := List.exists_cons_of_ne_nil (decimal_ne_nil s.length)
  have hdigit : ∀ x ∈ decimal s.length, digits.contains x = true := fun x hx =>
    contains_digits_of_mem_decimal hx
  have hbytes : pre ++ toHstring s ++ rest = pre ++ c :: (cs ++ 'H'.toUInt8 :: (s ++ rest)) := by
    simp [toHstring, hdec, ascii]
  have hskip := skipWhitespace_append hpre (not_whitespace_of_digit (hdigit c (by simp [hdec])))
    (cs ++ 'H'.toUInt8 :: (s ++ rest)) hfuel
  have hlength := parseLength_append hdigit (show digits.contains 'H'.toUInt8 = false by decide) 0
    (s ++ rest)
  rw [hdec, List.cons_append, ← hdec, foldl_decimal] at hlength
  obtain ⟨x, xs, hne⟩ := List.exists_cons_of_ne_nil
    (show pre ++ c :: (cs ++ 'H'.toUInt8 :: (s ++ rest)) ≠ [] by simp)
  rw [hbytes, hne, parseHollerithString, ← hne]
  · simp only [hskip, hlength, ne_eq, not_true_eq_false, if_false, List.take_left, List.drop_left]
  · simp

theorem parseHollerithString_item {fuel : ℕ} (s rest : Bytes) (hfuel : 1 < fuel) :
    parseHollerithString fuel (some (ascii " " ++ toHstring s ++ rest)) =
      pure (some s, some rest) := by
  have hall : (ascii " ").all whitespace.contains = true := by decide
  exact parseHollerithString_toHstring (fun c hc => List.all_eq_true.mp hall c hc) s rest hfuel

/-- The names of the blocks are parsed in their order. -/
theorem parseBlockNames_items {fuel : ℕ} (names : List Bytes) (hnames : ∀ s ∈ names, s ≠ [])
    (hfuel : names.length + 2 < fuel) :
    parseBlockNames fuel (some (names.flatMap fun s => ascii " " ++ toHstring s)) =
      pure names := by
  induction names generalizing fuel with
  | nil =>
    obtain ⟨fuel, rfl⟩ : ∃ n, fuel = n + 1 := ⟨fuel - 1, by omega⟩
    rfl
  | cons s names ih =>
    obtain ⟨fuel, rfl⟩ : ∃ n, fuel = n + 1 := ⟨fuel - 1, by omega⟩
    simp only [List.length_cons] at hfuel
    have hrest := ih (fun x hx => hnames x (List.mem_cons_of_mem s hx))
      (show names.length + 2 < fuel by omega)
    have hitem := parseHollerithString_item s (names.flatMap fun s => ascii " " ++ toHstring s)
      (show 1 < fuel by omega)
    obtain ⟨c, cs, rfl⟩ := List.exists_cons_of_ne_nil (hnames s List.mem_cons_self)
    rw [List.flatMap_cons, parseBlockNames, hitem, pure_bind]
    simp only [hrest, pure_bind]

/-- The blocks are parsed in the order of their names. -/
theorem parseBlocks_items {fuel : ℕ} (hfuel : 1 < fuel) (items : List (Bytes × Bytes))
    (blocks : Dict Bytes (Option Bytes)) :
    parseBlocks fuel (some (items.flatMap fun p => ascii " " ++ toHstring p.2)) blocks
        (items.map Prod.fst) =
      pure (items.foldl (fun d p => d.set p.1 (some p.2)) blocks) := by
  induction items generalizing blocks with
  | nil => rfl
  | cons p items ih =>
    rw [List.flatMap_cons, List.map_cons, parseBlocks, parseHollerithString_item _ _ hfuel,
      pure_bind]
    exact ih _

theorem encodeBlocks_items (items : List (Bytes × Bytes)) :
    encodeBlocks (items.map fun p => (p.1, some p.2)) =
      .ok (items.flatMap fun p => ascii " " ++ toHstring p.1,
        items.flatMap fun p => ascii " " ++ toHstring p.2) := by
  induction items with
  | nil => rfl
  | cons p items ih =>
    simp only [List.map_cons, encodeBlocks, toHollerithString, ih, List.flatMap_cons]
    rfl

/-- A dictionary of blocks as `encode_user_area` gets it. -/
def presentBlocks (blocks : Dict Bytes Bytes) : Dict Bytes (Option Bytes) := blocks.mapValues some

theorem sortedItems_perm (blocks : Dict Bytes Bytes) :
    (sortedItems blocks).Perm blocks.items := List.mergeSort_perm _ _

theorem sortedItems_presentBlocks (blocks : Dict Bytes Bytes) :
    sortedItems (presentBlocks blocks) = (sortedItems blocks).map fun p => (p.1, some p.2) := by
  rw [sortedItems, sortedItems, List.map_mergeSort]
  · rfl
  · intros
    rfl

/-- The bytes that encode a dictionary of blocks. -/
def userAreaText (blocks : Dict Bytes Bytes) : Bytes :=
  toHstring ((sortedItems blocks).flatMap fun p => ascii " " ++ toHstring p.1) ++
    (sortedItems blocks).flatMap fun p => ascii " " ++ toHstring p.2

theorem encodeUserArea_presentBlocks (blocks : Dict Bytes Bytes) :
    encodeUserArea (presentBlocks blocks) = .ok (userAreaText blocks) := by
  rw [encodeUserArea, sortedItems_presentBlocks, encodeBlocks_items]
  rfl

/-- The dictionary that decoding gives: the same items, in the order of their names. -/
def sortedBlocks (blocks : Dict Bytes Bytes) : Dict Bytes Bytes where
  items := sortedItems blocks
  nodup := ((sortedItems_perm blocks).map Prod.fst).nodup_iff.mpr blocks.nodup

theorem sortedBlocks_same (blocks : Dict Bytes Bytes) : (sortedBlocks blocks).Same blocks :=
  Dict.same_iff_perm.mpr (sortedItems_perm blocks)

/-- User areas round-trip: a dictionary without an empty name is decoded again. -/
theorem decodeUserArea_userAreaText {fuel : ℕ} {blocks : Dict Bytes Bytes} (hnames : [] ∉ blocks)
    (hfuel : blocks.items.length + 2 < fuel) :
    decodeUserArea fuel (userAreaText blocks) = pure (presentBlocks (sortedBlocks blocks)) := by
  have hperm := sortedItems_perm blocks
  have hnonempty : ∀ s ∈ (sortedItems blocks).map Prod.fst, s ≠ [] := by
    rintro s hs rfl
    exact hnames ((hperm.map Prod.fst).mem_iff.mp hs)
  have hlength : ((sortedItems blocks).map Prod.fst).length + 2 < fuel := by
    rw [List.length_map, hperm.length_eq]
    exact hfuel
  have hfuel' : ([] : Bytes).length < fuel := by simp; omega
  have hall := parseHollerithString_toHstring (by simp)
    ((sortedItems blocks).flatMap fun p => ascii " " ++ toHstring p.1)
    ((sortedItems blocks).flatMap fun p => ascii " " ++ toHstring p.2) hfuel'
  have hblockNames := parseBlockNames_items _ hnonempty hlength
  rw [List.flatMap_map] at hblockNames
  have hblocks := parseBlocks_items (show 1 < fuel by omega) (sortedItems blocks) ∅
  have hdict : (sortedItems blocks).foldl (fun d p => d.set p.1 (some p.2)) ∅ =
      presentBlocks (sortedBlocks blocks) := by
    have hnodup : ((∅ : Dict Bytes (Option Bytes)).keys ++
        ((sortedItems blocks).map fun p => (p.1, some p.2)).map Prod.fst).Nodup := by
      have hkeys := (hperm.map Prod.fst).nodup_iff.mpr blocks.nodup
      simpa [Dict.keys, EmptyCollection.emptyCollection, Dict.empty, Function.comp_def] using hkeys
    have hitems := Dict.items_foldl_set ∅ hnodup
    rw [List.foldl_map] at hitems
    exact Dict.ext hitems
  rw [List.nil_append] at hall
  rw [decodeUserArea, userAreaText, hall, pure_bind]
  simp only [hblockNames, pure_bind]
  rw [hblocks, hdict]

/-- The order in which the blocks were set does not show in the sorted items. -/
theorem sortedItems_eq {ν : Type} {blocks blocks' : Dict Bytes ν} (h : blocks.Same blocks') :
    sortedItems blocks = sortedItems blocks' := by
  have htrans : ∀ p q r : Bytes × ν, decide (p.1 ≤ q.1) = true → decide (q.1 ≤ r.1) = true →
      decide (p.1 ≤ r.1) = true := by
    intro p q r hpq hqr
    exact decide_eq_true (List.le_trans (of_decide_eq_true hpq) (of_decide_eq_true hqr))
  have htotal : ∀ p q : Bytes × ν, (decide (p.1 ≤ q.1) || decide (q.1 ≤ p.1)) = true := by
    intro p q
    rw [Bool.or_eq_true, decide_eq_true_iff, decide_eq_true_iff]
    exact List.le_total p.1 q.1
  have hperm : (sortedItems blocks).Perm (sortedItems blocks') :=
    (List.mergeSort_perm _ _).trans
      ((Dict.same_iff_perm.mp h).trans (List.mergeSort_perm _ _).symm)
  apply hperm.eq_of_pairwise _ (List.pairwise_mergeSort htrans htotal blocks.items)
    (List.pairwise_mergeSort htrans htotal blocks'.items)
  -- Items with the same name are the same item, as a dictionary has each name once.
  intro p q hp hq hpq hqp
  have hname : p.1 = q.1 :=
    List.le_antisymm (of_decide_eq_true hpq) (of_decide_eq_true hqp)
  have hp' : blocks'.get? p.1 = some p.2 :=
    Dict.get?_eq_some_iff.mpr (List.mem_mergeSort.mp (hperm.mem_iff.mp hp))
  have hq' : blocks'.get? q.1 = some q.2 :=
    Dict.get?_eq_some_iff.mpr (List.mem_mergeSort.mp hq)
  rw [hname, hq'] at hp'
  exact Prod.ext hname (Option.some.inj hp').symm

/-- **User areas round-trip.** A dictionary without an empty name is encoded, to the same
bytes for every order in which its items were set, and is decoded again. -/
theorem decodeUserArea_encodeUserArea (blocks : Dict Bytes Bytes) (hnames : [] ∉ blocks) :
    ∃ userArea, encodeUserArea (presentBlocks blocks) = .ok userArea ∧
      (∃ enough, ∀ fuel, enough ≤ fuel → ∃ decoded,
        decodeUserArea fuel userArea = pure decoded ∧ decoded.Same (presentBlocks blocks)) ∧
      ∀ blocks' : Dict Bytes Bytes, blocks'.Same blocks →
        encodeUserArea (presentBlocks blocks') = .ok userArea := by
  refine ⟨userAreaText blocks, encodeUserArea_presentBlocks blocks, ?_, ?_⟩
  · refine ⟨blocks.items.length + 3, fun fuel hfuel => ?_⟩
    have hdecode := decodeUserArea_userAreaText hnames
      (show blocks.items.length + 2 < fuel by omega)
    refine ⟨_, hdecode, fun k => ?_⟩
    rw [presentBlocks, presentBlocks, Dict.get?_mapValues, Dict.get?_mapValues,
      sortedBlocks_same blocks k]
  · intro blocks' hsame
    rw [encodeUserArea_presentBlocks, userAreaText, userAreaText, sortedItems_eq hsame]

/-- Blocks that look like the framing. -/
theorem decodeUserArea_encodeUserArea_framing :
    let blocks : Dict Bytes Bytes := ⟨[(ascii "2H", ascii " 1H"), (ascii " ", [])], by decide⟩
    [] ∉ blocks ∧ ∃ userArea, encodeUserArea (presentBlocks blocks) = .ok userArea ∧
      (∃ enough, ∀ fuel, enough ≤ fuel → ∃ decoded,
        decodeUserArea fuel userArea = pure decoded ∧ decoded.Same (presentBlocks blocks)) ∧
      ∀ blocks' : Dict Bytes Bytes, blocks'.Same blocks →
        encodeUserArea (presentBlocks blocks') = .ok userArea :=
  ⟨by decide, decodeUserArea_encodeUserArea _ (by decide)⟩

/-! ## Bytes that are not ASCII in decoded blocks -/

@[simp] theorem Loops.pure_inj {α : Type} {a b : α} : (pure a : Loops α) = pure b ↔ a = b := by
  constructor
  · intro h
    exact Except.ok.inj (Option.some.inj h)
  · rintro rfl
    rfl

@[simp] theorem Loops.throw_ne_pure {α : Type} {e : Exn} {b : α} :
    (throw e : Loops α) ≠ pure b := by
  intro h
  exact nomatch Option.some.inj h

@[simp] theorem Loops.none_ne_pure {α : Type} {b : α} : (ExceptT.mk none : Loops α) ≠ pure b := by
  intro h
  exact nomatch h

theorem Loops.bind_eq_pure {α β : Type} {x : Loops α} {f : α → Loops β} {b : β}
    (h : x >>= f = pure b) : ∃ a, x = pure a ∧ f a = pure b := by
  match x, h with
  | some (.ok a), h => exact ⟨a, rfl, h⟩
  | some (.error e), h => exact absurd h Loops.throw_ne_pure
  | none, h => exact absurd h Loops.none_ne_pure

/-- The bytes of a block, or of what is left of a string, that are not ASCII. -/
def nonAsciiOf (hstring : Option Bytes) : ℕ := nonAscii (hstring.getD [])

/-- The bytes in a dictionary that are not ASCII, in its names and its blocks. -/
def blocksNonAscii (blocks : Dict Bytes (Option Bytes)) : ℕ :=
  nonAscii (blocks.items.flatMap fun p => p.1 ++ p.2.getD [])

theorem nonAscii_skipWhitespace {fuel : ℕ} {s t : Bytes} (h : skipWhitespace fuel s = some t) :
    nonAscii t ≤ nonAscii s := by
  induction fuel generalizing s with
  | zero => simp [skipWhitespace] at h
  | succ fuel ih =>
    cases s with
    | nil => exact ih h
    | cons c s =>
      have hcons := nonAscii_append [c] s
      rw [skipWhitespace] at h
      split at h
      · have := ih h
        rw [List.singleton_append] at hcons
        omega
      · obtain rfl : c :: s = t := Option.some.inj h
        exact Nat.le_refl _

theorem nonAscii_parseLength {length n : ℕ} {c : UInt8} {s t : Bytes}
    (h : parseLength length s = .ok (n, c, t)) : nonAscii t ≤ nonAscii s := by
  induction s generalizing length with
  | nil => simp [parseLength] at h
  | cons d s ih =>
    have hcons := nonAscii_append [d] s
    rw [List.singleton_append] at hcons
    rw [parseLength] at h
    split at h
    · have := ih h
      omega
    · simp only [Except.ok.injEq, Prod.mk.injEq] at h
      obtain ⟨-, -, rfl⟩ := h
      omega

theorem nonAscii_parseHollerithString {fuel : ℕ} {hstring h rest : Option Bytes}
    (heq : parseHollerithString fuel hstring = pure (h, rest)) :
    nonAsciiOf h + nonAsciiOf rest ≤ nonAsciiOf hstring := by
  match hstring, heq with
  | none, heq =>
    obtain ⟨rfl, rfl⟩ : none = h ∧ none = rest := by simpa [parseHollerithString] using heq
    exact Nat.le_refl _
  | some [], heq =>
    obtain ⟨rfl, rfl⟩ : none = h ∧ some [] = rest := by simpa [parseHollerithString] using heq
    exact Nat.le_refl _
  | some (c :: s), heq =>
    rw [parseHollerithString] at heq
    · cases hskip : skipWhitespace fuel (c :: s) with
      | none => simp [hskip] at heq
      | some t =>
        cases hlength : parseLength 0 t with
        | error e => simp [hskip, hlength] at heq
        | ok r =>
          obtain ⟨length, d, u⟩ := r
          simp only [hskip, hlength] at heq
          split at heq
          · simp at heq
          · obtain ⟨rfl, rfl⟩ : some (u.take length) = h ∧ some (u.drop length) = rest := by
              simpa using heq
            have hcut := nonAscii_append (u.take length) (u.drop length)
            have := nonAscii_skipWhitespace hskip
            have := nonAscii_parseLength hlength
            rw [List.take_append_drop] at hcut
            simp only [nonAsciiOf, Option.getD_some]
            omega
    · simp

theorem nonAscii_parseBlockNames {fuel : ℕ} {hstring : Option Bytes} {names : List Bytes}
    (heq : parseBlockNames fuel hstring = pure names) :
    nonAscii names.flatten ≤ nonAsciiOf hstring := by
  induction fuel generalizing hstring names with
  | zero => simp [parseBlockNames] at heq
  | succ fuel ih =>
    rw [parseBlockNames] at heq
    obtain ⟨⟨h, rest⟩, hparse, heq⟩ := Loops.bind_eq_pure heq
    have hle := nonAscii_parseHollerithString hparse
    match h, heq with
    | none, heq =>
      obtain rfl : [] = names := by simpa using heq
      simp
    | some [], heq =>
      obtain rfl : [] = names := by simpa using heq
      simp
    | some (c :: s), heq =>
      obtain ⟨names', hnames, heq⟩ := Loops.bind_eq_pure heq
      obtain rfl : (c :: s) :: names' = names := by simpa using heq
      have := ih hnames
      simp only [nonAsciiOf, Option.getD_some, List.flatten_cons, nonAscii_append] at *
      omega

theorem nonAscii_set_le (blocks : Dict Bytes (Option Bytes)) (name : Bytes) (h : Option Bytes) :
    blocksNonAscii (blocks.set name h) ≤
      blocksNonAscii blocks + (nonAscii name + nonAsciiOf h) := by
  have hitems : ∀ items : List (Bytes × Option Bytes),
      nonAscii ((Dict.setItems name h items).flatMap fun p => p.1 ++ p.2.getD []) ≤
        nonAscii (items.flatMap fun p => p.1 ++ p.2.getD []) + (nonAscii name + nonAsciiOf h) := by
    intro items
    induction items with
    | nil => simp [Dict.setItems, nonAsciiOf]
    | cons p items ih =>
      rw [Dict.setItems]
      split
      · simp only [List.flatMap_cons, nonAscii_append, nonAsciiOf]
        omega
      · simp only [List.flatMap_cons, nonAscii_append]
        omega
  exact hitems blocks.items

theorem nonAscii_parseBlocks {fuel : ℕ} {hstring : Option Bytes} {names : List Bytes}
    {blocks blocks' : Dict Bytes (Option Bytes)}
    (heq : parseBlocks fuel hstring blocks names = pure blocks') :
    blocksNonAscii blocks' ≤
      blocksNonAscii blocks + nonAscii names.flatten + nonAsciiOf hstring := by
  induction names generalizing hstring blocks with
  | nil =>
    obtain rfl : blocks = blocks' := by simpa [parseBlocks] using heq
    simp
  | cons name names ih =>
    rw [parseBlocks] at heq
    obtain ⟨⟨h, rest⟩, hparse, heq⟩ := Loops.bind_eq_pure heq
    have hle := nonAscii_parseHollerithString hparse
    have hset := nonAscii_set_le blocks name h
    have := ih heq
    simp only [List.flatten_cons, nonAscii_append]
    omega

/-- Decoding makes no bytes: all names and blocks together are parts of the user area. -/
theorem nonAscii_decodeUserArea {fuel : ℕ} {userArea : Bytes} {blocks : Dict Bytes (Option Bytes)}
    (heq : decodeUserArea fuel userArea = pure blocks) :
    blocksNonAscii blocks ≤ nonAscii userArea := by
  rw [decodeUserArea] at heq
  obtain ⟨⟨hBlockNames, hBlocks⟩, hparse, heq⟩ := Loops.bind_eq_pure heq
  obtain ⟨names, hnames, heq⟩ := Loops.bind_eq_pure heq
  have hle := nonAscii_parseHollerithString hparse
  have := nonAscii_parseBlockNames hnames
  have := nonAscii_parseBlocks heq
  have hempty : blocksNonAscii ∅ = 0 := rfl
  simp only [nonAsciiOf, Option.getD_some] at *
  omega

theorem nonAscii_decimal (n : ℕ) : nonAscii (decimal n) = 0 := by
  rw [nonAscii_eq_zero]
  intro c hc
  have hdigit := contains_digits_of_mem_decimal hc
  have hall : digits.all (fun c => c < 128) = true := by decide
  exact of_decide_eq_true (List.all_eq_true.mp hall c (by simpa using hdigit))

theorem nonAscii_toHstring (s : Bytes) : nonAscii (toHstring s) = nonAscii s := by
  have hletter : nonAscii (ascii "H") = 0 := by decide
  rw [toHstring, nonAscii_append, nonAscii_append, nonAscii_decimal, hletter]
  omega

/-- Encoding adds only ASCII bytes. -/
theorem nonAscii_userAreaText (blocks : Dict Bytes Bytes) :
    nonAscii (userAreaText blocks) = blocksNonAscii (presentBlocks blocks) := by
  have hletter : nonAscii (ascii " ") = 0 := by decide
  have hitems : ∀ items : List (Bytes × Bytes),
      nonAscii (items.flatMap fun p => ascii " " ++ toHstring p.1) +
        nonAscii (items.flatMap fun p => ascii " " ++ toHstring p.2) =
      nonAscii (items.flatMap fun p => p.1 ++ p.2) := by
    intro items
    induction items with
    | nil => rfl
    | cons p items ih =>
      simp only [List.flatMap_cons, nonAscii_append, nonAscii_toHstring, hletter]
      omega
  have hperm := (sortedItems_perm blocks).flatMap_right fun p => p.1 ++ p.2
  rw [userAreaText, nonAscii_append, nonAscii_toHstring, hitems, nonAscii, hperm.countP_eq]
  simp [blocksNonAscii, presentBlocks, Dict.mapValues, List.flatMap_map, nonAscii]

/-- The same blocks have the same bytes. -/
theorem Dict.Same.blocksNonAscii {d e : Dict Bytes (Option Bytes)} (h : d.Same e) :
    blocksNonAscii d = blocksNonAscii e :=
  ((Dict.same_iff_perm.mp h).flatMap_right _).countP_eq _

theorem blocksNonAscii_eq_zero {blocks : Dict Bytes Bytes} :
    blocksNonAscii (presentBlocks blocks) = 0 ↔
      ∀ p ∈ blocks.items, nonAscii p.1 = 0 ∧ nonAscii p.2 = 0 := by
  have hitems : ∀ items : List (Bytes × Bytes), nonAscii (items.flatMap fun p => p.1 ++ p.2) = 0 ↔
      ∀ p ∈ items, nonAscii p.1 = 0 ∧ nonAscii p.2 = 0 := by
    intro items
    induction items with
    | nil => simp
    | cons p items ih => simp only [List.flatMap_cons, nonAscii_append, Nat.add_eq_zero_iff, ih,
        List.forall_mem_cons]
  rw [← hitems]
  simp [blocksNonAscii, presentBlocks, Dict.mapValues, List.flatMap_map]

end Pylyskom
