import Mathlib.Data.List.Perm.Subperm
import Mathlib.Order.Fin.Basic
import Pylyskom.Collections.Lists
import Pylyskom.Collections.Products
import Pylyskom.Errors
import Pylyskom.Strings.Brackets

/-!
# Case-insensitive regular expressions

`case_insensitive_regexp` of `utils.py` replaces each character of a regular expression by the
characters that the collate table of the server treats alike, in brackets if there are
several. They are not escaped, so what the brackets mean depends on which characters come
together. This file proves for which expressions and tables they mean what they should.
-/

namespace Pylyskom.CaseInsensitive

/-- The characters of Python's strings. `chr` makes each of them, surrogates as well. -/
abbrev CodePoint := Fin 0x110000

def codePoint (c : Char) : CodePoint := ⟨c.toNat, by
  rcases c.valid with h | h
  · exact h.trans (by decide)
  · exact h.2⟩

def chr (i : ℕ) : Except Exn CodePoint :=
  if h : i < 0x110000 then .ok ⟨i, h⟩ else .error (.builtinError .valueError)

/-- `bytes.find` for one byte, where `none` is the result -1. -/
def find (s : List UInt8) (byte : UInt8) (start : ℕ) : Option ℕ :=
  ((s.drop start).findIdx? (· = byte)).map (start + ·)

/-- What `find` returns is the first place of the byte. -/
theorem find_eq_some {s : List UInt8} {byte : UInt8} {start i : ℕ}
    (h : find s byte start = some i) :
    start ≤ i ∧ s[i]? = some byte ∧ ∀ j, start ≤ j → j < i → s[j]? ≠ some byte := by
  obtain ⟨k, hk, rfl⟩ := Option.map_eq_some_iff.mp h
  obtain ⟨hlt, hbyte, hbefore⟩ := List.findIdx?_eq_some_iff_getElem.mp hk
  rw [List.length_drop] at hlt
  refine ⟨Nat.le_add_right start k, ?_, fun j hj hjk hsome => ?_⟩
  · rw [List.getElem_drop, decide_eq_true_eq] at hbyte
    rw [List.getElem?_eq_getElem (by omega), hbyte]
  · obtain ⟨n, rfl⟩ := Nat.exists_eq_add_of_le hj
    obtain ⟨hn, heq⟩ := List.getElem?_eq_some_iff.mp hsome
    refine hbefore n (by omega) ?_
    rw [List.getElem_drop, decide_eq_true_eq, heq]

theorem find_eq_none {s : List UInt8} {byte : UInt8} {start : ℕ}
    (h : find s byte start = none) {i : ℕ} (hi : start ≤ i) : s[i]? ≠ some byte := by
  rw [find, Option.map_eq_none_iff, List.findIdx?_eq_none_iff] at h
  intro hsome
  obtain ⟨n, rfl⟩ := Nat.exists_eq_add_of_le hi
  have hmem : byte ∈ s.drop start := by
    rw [List.mem_iff_getElem?]
    exact ⟨n, by rw [List.getElem?_drop, hsome]⟩
  simpa using h byte hmem

/-- The loop of `_equivalent_chars`. -/
def equivalentCharsFrom (collateTable : List UInt8) (normChar : UInt8) (nextIndex : ℕ)
    (result : List CodePoint) : Except Exn (List CodePoint) :=
  match _h : find collateTable normChar nextIndex with
  | none => .ok result
  | some nextIndex => do
    let c ← chr nextIndex
    equivalentCharsFrom collateTable normChar (nextIndex + 1) (result ++ [c])
termination_by collateTable.length - nextIndex
decreasing_by
  obtain ⟨hle, hsome, -⟩ := find_eq_some _h
  have hlt := (List.getElem?_eq_some_iff.mp hsome).1
  omega

theorem equivalentCharsFrom_of_none {collateTable : List UInt8} {normChar : UInt8}
    {nextIndex : ℕ} (h : find collateTable normChar nextIndex = none)
    (result : List CodePoint) :
    equivalentCharsFrom collateTable normChar nextIndex result = .ok result := by
  rw [equivalentCharsFrom]
  split
  · rfl
  · next i hi => cases h.symm.trans hi

theorem equivalentCharsFrom_of_some {collateTable : List UInt8} {normChar : UInt8}
    {nextIndex i : ℕ} (h : find collateTable normChar nextIndex = some i)
    (hi : i < 0x110000) (result : List CodePoint) :
    equivalentCharsFrom collateTable normChar nextIndex result =
      equivalentCharsFrom collateTable normChar (i + 1) (result ++ [⟨i, hi⟩]) := by
  rw [equivalentCharsFrom]
  split
  · next hnone => cases hnone.symm.trans h
  · next j hj =>
    cases hj.symm.trans h
    rw [chr, dif_pos hi]
    rfl

/-- All characters equivalent to `c` in the collate table. -/
def equivalentChars (c : CodePoint) (collateTable : List UInt8) : Except Exn (List CodePoint) :=
  match collateTable[c.val]? with
  | none => .ok [c]
  | some normChar => equivalentCharsFrom collateTable normChar 0 []

/-- The loop of `case_insensitive_regexp`. -/
def caseInsensitiveRegexpFrom (collateTable : List UInt8) :
    Bool → List CodePoint → List CodePoint → Except Exn (List CodePoint)
  | _, result, [] => .ok result
  | insideBrackets, result, c :: regexp => do
    let insideBrackets := if c = codePoint '[' then true else insideBrackets
    let eqvChars ← if insideBrackets then .ok [c] else equivalentChars c collateTable
    let result :=
      if eqvChars.length > 1 then result ++ (codePoint '[' :: eqvChars ++ [codePoint ']'])
      else result ++ eqvChars
    let insideBrackets := if c = codePoint ']' then false else insideBrackets
    caseInsensitiveRegexpFrom collateTable insideBrackets result regexp

/-- Make a regular expression case insensitive. -/
def caseInsensitiveRegexp (regexp : List CodePoint) (collateTable : List UInt8) :
    Except Exn (List CodePoint) :=
  caseInsensitiveRegexpFrom collateTable false [] regexp

/-! ## What it is for -/

/-- The usual rules for brackets. -/
def brackets : BracketSyntax CodePoint where
  dash := codePoint '-'
  opening := codePoint '['
  closing := codePoint ']'
  negation := codePoint '^'
  dash_lt := by decide
  opening_lt := by decide
  closing_lt := by decide

/-- A character is the given one, or the table maps both to the same byte. -/
def Equivalent (collateTable : List UInt8) (c x : CodePoint) : Prop :=
  x = c ∨ c.val < collateTable.length ∧ collateTable[x.val]? = collateTable[c.val]?

instance (collateTable : List UInt8) (c x : CodePoint) :
    Decidable (Equivalent collateTable c x) :=
  inferInstanceAs (Decidable (_ ∨ _))

/-- The result is a regular expression that matches exactly the equivalent strings, among
those whose characters are in the table. -/
def MatchesEquivalent (regexp : List CodePoint) (collateTable : List UInt8) : Prop :=
  ∃ text atoms, caseInsensitiveRegexp regexp collateTable = .ok text ∧
    brackets.parse text = some atoms ∧
    ∀ w : List CodePoint, (∀ x ∈ w, x.val < collateTable.length) →
      (List.Forall₂ Atom.Matches atoms w ↔ List.Forall₂ (Equivalent collateTable) regexp w)

/-! ## The class of a character -/

/-- Python has a character for every index that the table maps to the same byte. -/
def Encodable (collateTable : List UInt8) (c : CodePoint) : Prop :=
  c.val < collateTable.length → ∀ i, collateTable[i]? = collateTable[c.val]? → i < 0x110000

variable {collateTable : List UInt8} {c : CodePoint}

/-- The loop appends the characters of the byte from an index on, in order, unless one of the
indices has no character. -/
theorem equivalentCharsFrom_cases (collateTable : List UInt8) (normChar : UInt8)
    (nextIndex : ℕ) (result : List CodePoint) :
    ((∃ i, nextIndex ≤ i ∧ collateTable[i]? = some normChar ∧ 0x110000 ≤ i) ∧
      ∃ e, equivalentCharsFrom collateTable normChar nextIndex result = .error e) ∨
    ((∀ i, nextIndex ≤ i → collateTable[i]? = some normChar → i < 0x110000) ∧
      ∃ chars, equivalentCharsFrom collateTable normChar nextIndex result =
          .ok (result ++ chars) ∧
        chars.Pairwise (· < ·) ∧
        ∀ x : CodePoint, x ∈ chars ↔ nextIndex ≤ x.val ∧ collateTable[x.val]? = some normChar) := by
  fun_induction equivalentCharsFrom collateTable normChar nextIndex result with
  | case1 nextIndex result hfind =>
    have hnone {i : ℕ} (hi : nextIndex ≤ i) := find_eq_none hfind hi
    refine Or.inr ⟨fun i hi hsome => absurd hsome (hnone hi), [], by simp, List.Pairwise.nil, ?_⟩
    intro x
    refine iff_of_false List.not_mem_nil fun hx => hnone hx.1 hx.2
  | case2 nextIndex result i hfind ih =>
    obtain ⟨hle, hsome, hbefore⟩ := find_eq_some hfind
    by_cases hi : i < 0x110000
    · have hchr : chr i = .ok ⟨i, hi⟩ := dif_pos hi
      rw [hchr]
      rcases ih ⟨i, hi⟩ with ⟨⟨j, hj, hjsome, hbig⟩, hrun⟩ | ⟨hall, chars, hrun, hsorted, hmem⟩
      · exact Or.inl ⟨⟨j, by omega, hjsome, hbig⟩, hrun⟩
      refine Or.inr ⟨fun j hj hjsome => ?_, ⟨i, hi⟩ :: chars, ?_, ?_, fun x => ?_⟩
      · rcases Nat.lt_or_ge i j with hlt | hge
        · exact hall j hlt hjsome
        · omega
      · exact hrun.trans (by rw [List.append_assoc, List.singleton_append])
      · exact List.pairwise_cons.mpr ⟨fun x hx => ((hmem x).mp hx).1, hsorted⟩
      · rw [List.mem_cons, hmem]
        constructor
        · rintro (rfl | ⟨hx, hxsome⟩)
          · exact ⟨hle, hsome⟩
          · exact ⟨by omega, hxsome⟩
        · rintro ⟨hx, hxsome⟩
          rcases Nat.lt_trichotomy x.val i with hlt | heq | hgt
          · exact absurd hxsome (hbefore _ hx hlt)
          · exact Or.inl (Fin.ext heq)
          · exact Or.inr ⟨hgt, hxsome⟩
    · have hchr : chr i = .error (.builtinError .valueError) := dif_neg hi
      rw [hchr]
      exact Or.inl ⟨⟨i, hle, hsome, Nat.not_lt.mp hi⟩, _, rfl⟩

/-- `_equivalent_chars` returns the class of a character in order, or raises. -/
theorem equivalentChars_cases (collateTable : List UInt8) (c : CodePoint) :
    (¬ Encodable collateTable c ∧ ∃ e, equivalentChars c collateTable = .error e) ∨
    (Encodable collateTable c ∧ ∃ chars, equivalentChars c collateTable = .ok chars ∧
      chars.Pairwise (· < ·) ∧ ∀ x, x ∈ chars ↔ Equivalent collateTable c x) := by
  rw [equivalentChars]
  cases hnorm : collateTable[c.val]? with
  | none =>
    have hge : collateTable.length ≤ c.val := List.getElem?_eq_none_iff.mp hnorm
    refine Or.inr ⟨fun hlt => absurd hlt (Nat.not_lt.mpr hge), [c], rfl,
      List.pairwise_singleton _ c, fun x => ?_⟩
    rw [List.mem_singleton, Equivalent]
    exact ⟨Or.inl, fun hx => hx.resolve_right fun h => absurd h.1 (Nat.not_lt.mpr hge)⟩
  | some normChar =>
    have hlt : c.val < collateTable.length := (List.getElem?_eq_some_iff.mp hnorm).1
    rcases equivalentCharsFrom_cases collateTable normChar 0 [] with
      ⟨⟨i, -, hi, hbig⟩, hrun⟩ | ⟨hall, chars, hrun, hsorted, hmem⟩
    · refine Or.inl ⟨fun h => ?_, hrun⟩
      have hsmall := h hlt i (hi.trans hnorm.symm)
      omega
    · refine Or.inr ⟨fun _ i hi => hall i (Nat.zero_le i) (hi.trans hnorm), chars, hrun,
        hsorted, fun x => ?_⟩
      rw [hmem, Equivalent, hnorm]
      constructor
      · exact fun hx => Or.inr ⟨hlt, hx.2⟩
      · rintro (rfl | hx)
        · exact ⟨Nat.zero_le _, hnorm⟩
        · exact ⟨Nat.zero_le _, hx.2⟩

/-- What `_equivalent_chars` returns, where it does. -/
def charClass (collateTable : List UInt8) (c : CodePoint) : List CodePoint :=
  (equivalentChars c collateTable).toOption.getD []

theorem Encodable.equivalentChars_eq (h : Encodable collateTable c) :
    equivalentChars c collateTable = .ok (charClass collateTable c) ∧
      (charClass collateTable c).Pairwise (· < ·) ∧
      ∀ x, x ∈ charClass collateTable c ↔ Equivalent collateTable c x := by
  rcases equivalentChars_cases collateTable c with ⟨hnot, -⟩ | ⟨-, chars, hrun, hchars⟩
  · exact absurd h hnot
  · rw [charClass, hrun]
    exact ⟨rfl, hchars⟩

theorem Encodable.pairwise (h : Encodable collateTable c) :
    (charClass collateTable c).Pairwise (· < ·) := h.equivalentChars_eq.2.1

theorem Encodable.mem_charClass_iff (h : Encodable collateTable c) {x : CodePoint} :
    x ∈ charClass collateTable c ↔ Equivalent collateTable c x := h.equivalentChars_eq.2.2 x

theorem Encodable.self_mem (h : Encodable collateTable c) : c ∈ charClass collateTable c :=
  h.mem_charClass_iff.mpr (Or.inl rfl)

/-- With a character that is not in the table, the table is too short for an index without a
character. -/
theorem encodable_of_length_le {d : CodePoint} (hd : collateTable.length ≤ d.val) :
    Encodable collateTable c := by
  intro hlt i hi
  have hsome := hi.trans (List.getElem?_eq_getElem hlt)
  have hi_lt := (List.getElem?_eq_some_iff.mp hsome).1
  omega

/-! ## The regular expression -/

variable {regexp : List CodePoint}

/-- Without an opening bracket the loop pastes the classes one after another. -/
theorem caseInsensitiveRegexpFrom_eq (h : codePoint '[' ∉ regexp)
    (hencodable : ∀ c ∈ regexp, Encodable collateTable c) (result : List CodePoint) :
    caseInsensitiveRegexpFrom collateTable false result regexp =
      .ok (result ++ regexp.flatMap fun c => brackets.paste (charClass collateTable c)) := by
  induction regexp generalizing result with
  | nil => simp [caseInsensitiveRegexpFrom]
  | cons c regexp ih =>
    obtain ⟨hc, hrest⟩ := not_or.mp (mt List.mem_cons.mpr h)
    obtain ⟨hencodable_c, hencodable⟩ := List.forall_mem_cons.mp hencodable
    have hne : c ≠ codePoint '[' := fun heq => hc heq.symm
    rw [caseInsensitiveRegexpFrom, List.flatMap_cons, ← List.append_assoc, BracketSyntax.paste]
    simp only [if_neg hne, Bool.false_eq_true, if_false, ite_self,
      hencodable_c.equivalentChars_eq.1]
    refine (ih hrest hencodable _).trans ?_
    split <;> rfl

theorem caseInsensitiveRegexpFrom_error (h : codePoint '[' ∉ regexp)
    (hencodable : ¬ ∀ c ∈ regexp, Encodable collateTable c) (result : List CodePoint) :
    ∃ e, caseInsensitiveRegexpFrom collateTable false result regexp = .error e := by
  induction regexp generalizing result with
  | nil => exact absurd (fun c hc => absurd hc List.not_mem_nil) hencodable
  | cons c regexp ih =>
    obtain ⟨hc, hrest⟩ := not_or.mp (mt List.mem_cons.mpr h)
    have hne : c ≠ codePoint '[' := fun heq => hc heq.symm
    rw [caseInsensitiveRegexpFrom]
    simp only [if_neg hne, Bool.false_eq_true, if_false, ite_self]
    rcases equivalentChars_cases collateTable c with ⟨-, e, hrun⟩ | ⟨hencodable_c, chars, hrun, -⟩
    · rw [hrun]
      exact ⟨e, rfl⟩
    · rw [hrun]
      exact ih hrest (fun hall => hencodable (List.forall_mem_cons.mpr ⟨hencodable_c, hall⟩)) _

/-! ## When it matches the equivalent strings -/

/-- What a class may have in it when it is put between brackets: the negation character does
not come first, the closing one only first, and a dash first, last or between its neighbours. -/
structure Bracketable (collateTable : List UInt8) (c : CodePoint) : Prop where
  negation : Equivalent collateTable c (codePoint '^') →
    ∃ x, Equivalent collateTable c x ∧ x < codePoint '^'
  closing : Equivalent collateTable c (codePoint ']') →
    ∀ x, Equivalent collateTable c x → codePoint ']' ≤ x
  dash : Equivalent collateTable c (codePoint '-') →
    (∀ x, Equivalent collateTable c x → codePoint '-' ≤ x) ∨
    (∀ x, Equivalent collateTable c x → x ≤ codePoint '-') ∨
    Equivalent collateTable c (codePoint ',') ∧ Equivalent collateTable c (codePoint '.')

/-- The class of a character is made of characters, and it is this one only, which is then a
literal, or may stand between brackets. -/
def Pasteable (collateTable : List UInt8) (c : CodePoint) : Prop :=
  Encodable collateTable c ∧
    ((∀ x, Equivalent collateTable c x → x = c) ∨ Bracketable collateTable c)

theorem comma_covBy_dash : codePoint ',' ⋖ brackets.dash :=
  ⟨by decide, fun x h h' => absurd (Nat.succ_le_of_lt h) (Nat.not_le.mpr h')⟩

theorem dash_covBy_stop : brackets.dash ⋖ codePoint '.' :=
  ⟨by decide, fun x h h' => absurd (Nat.succ_le_of_lt h) (Nat.not_le.mpr h')⟩

theorem Encodable.length_le_one_iff (h : Encodable collateTable c) :
    (charClass collateTable c).length ≤ 1 ↔ ∀ x, Equivalent collateTable c x → x = c := by
  constructor
  · intro hle x hx
    obtain ⟨y, hy⟩ := List.length_eq_one_iff.mp
      (le_antisymm hle (List.length_pos_of_mem h.self_mem))
    have hx' := h.mem_charClass_iff.mpr hx
    have hc := h.self_mem
    rw [hy, List.mem_singleton] at hx' hc
    rw [hx', hc]
  · intro hall
    have hsubset : charClass collateTable c ⊆ [c] := fun x hx =>
      List.mem_singleton.mpr (hall x (h.mem_charClass_iff.mp hx))
    exact (h.pairwise.nodup.subperm hsubset).length_le

theorem Encodable.faithful_iff (h : Encodable collateTable c) :
    brackets.Faithful (charClass collateTable c) ↔ Pasteable collateTable c := by
  rw [BracketSyntax.faithful_iff h.pairwise comma_covBy_dash dash_covBy_stop,
    h.length_le_one_iff, Pasteable, and_iff_right h]
  simp only [h.mem_charClass_iff]
  refine or_congr_right ⟨fun hset => ⟨hset.1, hset.2.1, hset.2.2⟩, fun hclass =>
    ⟨hclass.negation, hclass.closing, hclass.dash⟩⟩

/-- The result is read as the atoms of the classes, one class after another. -/
theorem exists_pasted_classes (h : codePoint '[' ∉ regexp)
    (hencodable : ∀ c ∈ regexp, Encodable collateTable c) {V : Set CodePoint}
    (hV : IsLowerSet V) (hclasses : ∀ c ∈ regexp, ∀ x ∈ charClass collateTable c, x ∈ V) :
    ∃ (text : List CodePoint) (atoms : CodePoint → List (Atom CodePoint)),
      caseInsensitiveRegexp regexp collateTable = .ok text ∧
      brackets.parse text = some (regexp.flatMap atoms) ∧
      ∀ c ∈ regexp, brackets.Pasted V (charClass collateTable c) (atoms c) := by
  have hpasted : ∀ c ∈ regexp, ∃ atoms, brackets.Pasted V (charClass collateTable c) atoms := by
    intro c hc
    have hself := (hencodable c hc).self_mem
    refine BracketSyntax.exists_pasted (hencodable c hc).pairwise (List.ne_nil_of_mem hself) ?_
      hV (hclasses c hc)
    intro hopening
    rw [hopening] at hself
    obtain rfl : c = codePoint '[' := List.mem_singleton.mp hself
    exact h hc
  choose! atoms hatoms using hpasted
  refine ⟨_, atoms, caseInsensitiveRegexpFrom_eq h hencodable [], ?_, hatoms⟩
  exact (BracketSyntax.ReadsAs.flatMap fun c hc => (hatoms c hc).readsAs).parse_eq

/-- What holds of the result and its atoms, once they are known. -/
theorem matchesEquivalent_iff_of_eq {text : List CodePoint} {atoms : List (Atom CodePoint)}
    (hrun : caseInsensitiveRegexp regexp collateTable = .ok text)
    (hparse : brackets.parse text = some atoms) :
    MatchesEquivalent regexp collateTable ↔
      ∀ w : List CodePoint, (∀ x ∈ w, x.val < collateTable.length) →
        (List.Forall₂ Atom.Matches atoms w ↔
          List.Forall₂ (Equivalent collateTable) regexp w) := by
  constructor
  · rintro ⟨text', atoms', hrun', hparse', hmatches⟩
    obtain rfl := Except.ok.inj (hrun.symm.trans hrun')
    obtain rfl := Option.some.inj (hparse.symm.trans hparse')
    exact hmatches
  · exact fun hmatches => ⟨text, atoms, hrun, hparse, hmatches⟩

/-- A character that is not in the table is in no string of characters that are. -/
theorem matchesEquivalent_of_length_le (h : codePoint '[' ∉ regexp) {d : CodePoint}
    (hd : d ∈ regexp) (hlength : collateTable.length ≤ d.val) :
    MatchesEquivalent regexp collateTable := by
  have hencodable (c : CodePoint) : Encodable collateTable c := encodable_of_length_le hlength
  obtain ⟨text, atoms, hrun, hparse, hpasted⟩ := exists_pasted_classes h
    (fun c _ => hencodable c) isLowerSet_univ (fun c _ x _ => Set.mem_univ x)
  have hself : ∀ x, Equivalent collateTable d x → x = d := fun x hx =>
    hx.resolve_right fun hlt => absurd hlt.1 (Nat.not_lt.mpr hlength)
  have hatoms := (hpasted d hd).map_within_iff.mpr
    (Or.inl ((hencodable d).length_le_one_iff.mpr hself))
  obtain ⟨atom, hatom, hwithin⟩ := List.map_eq_singleton_iff.mp hatoms
  rw [matchesEquivalent_iff_of_eq hrun hparse]
  intro w hw
  refine iff_of_false (fun hmatches => ?_) fun hequivalent => ?_
  · have hmem : atom ∈ regexp.flatMap atoms :=
      List.mem_flatMap.mpr ⟨d, hd, hatom ▸ List.mem_singleton_self atom⟩
    obtain ⟨x, hx, hmatch⟩ := exists_of_forall₂ hmatches.flip hmem
    have hxd : x ∈ charClass collateTable d := by
      change x ∈ {x | x ∈ charClass collateTable d}
      rw [← hwithin]
      exact ⟨Set.mem_univ x, hmatch⟩
    have hval := hw x hx
    rw [hself x ((hencodable d).mem_charClass_iff.mp hxd)] at hval
    omega
  · obtain ⟨x, hx, hequal⟩ := exists_of_forall₂ hequivalent.flip hd
    have hval := hw x hx
    rw [hself x hequal] at hval
    omega

/-- The characters equivalent to one of the table are in the table. -/
theorem Equivalent.lt {x : CodePoint} (h : Equivalent collateTable c x)
    (hc : c.val < collateTable.length) : x.val < collateTable.length := by
  rcases h with rfl | ⟨-, heq⟩
  · exact hc
  · exact (List.getElem?_eq_some_iff.mp (heq.trans (List.getElem?_eq_getElem hc))).1

/-- With all its characters in the table, a regular expression is compared set by set. -/
theorem matchesEquivalent_iff_of_lt (h : codePoint '[' ∉ regexp)
    (hlt : ∀ c ∈ regexp, c.val < collateTable.length)
    (hencodable : ∀ c ∈ regexp, Encodable collateTable c) :
    MatchesEquivalent regexp collateTable ↔ ∀ c ∈ regexp, Pasteable collateTable c := by
  let V : Set CodePoint := {x | x.val < collateTable.length}
  have hV : IsLowerSet V := by
    intro x y hyx hx
    exact Nat.lt_of_le_of_lt (Fin.le_def.mp hyx) hx
  have hmem : ∀ c ∈ regexp, ∀ x, x ∈ charClass collateTable c ↔ Equivalent collateTable c x :=
    fun c hc x => (hencodable c hc).mem_charClass_iff
  obtain ⟨text, atoms, hrun, hparse, hpasted⟩ := exists_pasted_classes h hencodable hV
    (fun c hc x hx => ((hmem c hc x).mp hx).lt (hlt c hc))
  have hatoms : ∀ S ∈ (regexp.flatMap atoms).map (Atom.within V), S.Nonempty := by
    intro S hS
    obtain ⟨atom, hatom, rfl⟩ := List.mem_map.mp hS
    obtain ⟨c, hc, hatom⟩ := List.mem_flatMap.mp hatom
    exact (hpasted c hc).nonempty atom hatom
  have hclasses : ∀ S ∈ regexp.map fun c => {x | Equivalent collateTable c x}, S.Nonempty := by
    intro S hS
    obtain ⟨c, -, rfl⟩ := List.mem_map.mp hS
    exact ⟨c, Or.inl rfl⟩
  have hvalid : ∀ w, List.Forall₂ (Equivalent collateTable) regexp w → ∀ x ∈ w, x ∈ V := by
    intro w hequivalent x hx
    obtain ⟨c, hc, hequal⟩ := exists_of_forall₂ hequivalent hx
    exact hequal.lt (hlt c hc)
  have hpieces : ∀ c ∈ regexp, (atoms c).map (Atom.within V) ≠ [] := fun c hc =>
    mt List.map_eq_nil_iff.mp (hpasted c hc).ne_nil
  rw [matchesEquivalent_iff_of_eq hrun hparse]
  refine (BracketSyntax.forall_forall₂_iff hvalid).trans ?_
  rw [forall₂_mem_iff_eq hatoms hclasses, List.map_flatMap, flatMap_eq_map_iff hpieces]
  refine forall₂_congr fun c hc => ?_
  have hclass : {x | Equivalent collateTable c x} = {x | x ∈ charClass collateTable c} :=
    Set.ext fun x => (hmem c hc x).symm
  rw [hclass, (hpasted c hc).map_within_iff, (hencodable c hc).faithful_iff]

/-- **The result matches exactly the equivalent strings if and only if one of the characters is
not in the table, or the class of each character may be pasted.** -/
theorem matchesEquivalent_iff (h : codePoint '[' ∉ regexp) :
    MatchesEquivalent regexp collateTable ↔
      (∃ c ∈ regexp, collateTable.length ≤ c.val) ∨ ∀ c ∈ regexp, Pasteable collateTable c := by
  by_cases hout : ∃ c ∈ regexp, collateTable.length ≤ c.val
  · obtain ⟨d, hd, hlength⟩ := hout
    exact iff_of_true (matchesEquivalent_of_length_le h hd hlength) (Or.inl ⟨d, hd, hlength⟩)
  rw [or_iff_right hout]
  by_cases hencodable : ∀ c ∈ regexp, Encodable collateTable c
  · refine matchesEquivalent_iff_of_lt h (fun c hc => ?_) hencodable
    exact Nat.not_le.mp fun hle => hout ⟨c, hc, hle⟩
  · refine iff_of_false ?_ fun hpasteable => hencodable fun c hc => (hpasteable c hc).1
    rintro ⟨text, atoms, hrun, -⟩
    obtain ⟨e, herror⟩ := caseInsensitiveRegexpFrom_error h hencodable []
    exact absurd (hrun.symm.trans herror) (by simp)

/-- Letters and digits, with a table for the upper and lower case of ASCII. -/
theorem matchesEquivalent_iff_letters :
    MatchesEquivalent [codePoint 'k', codePoint '9']
      ((List.range 128).map fun i => UInt8.ofNat (if 97 ≤ i ∧ i ≤ 122 then i - 32 else i)) := by
  refine (matchesEquivalent_iff (by decide)).mpr (Or.inr ?_)
  have hencodable (c : CodePoint) : Encodable
      ((List.range 128).map fun i => UInt8.ofNat (if 97 ≤ i ∧ i ≤ 122 then i - 32 else i)) c := by
    intro hlt i hi
    have hi_lt := (List.getElem?_eq_some_iff.mp (hi.trans (List.getElem?_eq_getElem hlt))).1
    rw [List.length_map, List.length_range] at hi_lt
    omega
  have hplain : ∀ c ∈ [codePoint 'k', codePoint '9'], ∀ d ∈ [codePoint '^', codePoint ']',
      codePoint '-'], ¬ Equivalent
      ((List.range 128).map fun i => UInt8.ofNat (if 97 ≤ i ∧ i ≤ 122 then i - 32 else i)) c d := by
    simp [Equivalent, codePoint]
  intro c hc
  refine ⟨hencodable c, Or.inr ⟨fun h => ?_, fun h => ?_, fun h => ?_⟩⟩
  · exact absurd h (hplain c hc _ (by simp))
  · exact absurd h (hplain c hc _ (by simp))
  · exact absurd h (hplain c hc _ (by simp))

/-- A table that treats `^` and `~` alike, as they are one letter in Swedish ASCII: the class of
`~` is pasted to an expression that matches everything but `~`. -/
theorem not_matchesEquivalent_tilde :
    ¬ MatchesEquivalent [codePoint '~']
      ((List.range 128).map fun i => UInt8.ofNat (if i = 126 then 94 else i)) := by
  set table := (List.range 128).map fun i => UInt8.ofNat (if i = 126 then 94 else i) with htable
  have hnorm : table[(codePoint '~').val]? = some 94 := by
    rw [htable]
    decide +kernel
  have hfind : find table 94 0 = some 94 ∧ find table 94 95 = some 126 ∧
      find table 94 127 = none := by
    rw [htable]
    decide +kernel
  have hclass : equivalentChars (codePoint '~') table = .ok [codePoint '^', codePoint '~'] := by
    rw [equivalentChars, hnorm]
    dsimp only
    rw [equivalentCharsFrom_of_some hfind.1 (by decide),
      equivalentCharsFrom_of_some hfind.2.1 (by decide), equivalentCharsFrom_of_none hfind.2.2]
    rfl
  have hrun : caseInsensitiveRegexp [codePoint '~'] table =
      .ok [codePoint '[', codePoint '^', codePoint '~', codePoint ']'] := by
    have hother : codePoint '~' ≠ codePoint '[' := by decide
    simp only [caseInsensitiveRegexp, caseInsensitiveRegexpFrom, if_neg hother,
      Bool.false_eq_true, if_false, hclass]
    rfl
  rintro ⟨text, atoms, hrun', hparse, hmatches⟩
  obtain rfl := Except.ok.inj (hrun.symm.trans hrun')
  have hatoms : brackets.parse [codePoint '[', codePoint '^', codePoint '~', codePoint ']'] =
      some [.bracket true [.char (codePoint '~')]] := by decide
  obtain rfl := Option.some.inj (hatoms.symm.trans hparse)
  have hin : ∀ x ∈ [codePoint '~'], x.val < table.length := by
    intro x hx
    rw [List.mem_singleton.mp hx, htable, List.length_map, List.length_range]
    decide
  have htilde := (hmatches [codePoint '~'] hin).mpr (.cons (Or.inl rfl) .nil)
  have hnot := (List.forall₂_cons.mp htilde).1
  exact hnot ⟨_, List.mem_cons_self, rfl⟩

end Pylyskom.CaseInsensitive
