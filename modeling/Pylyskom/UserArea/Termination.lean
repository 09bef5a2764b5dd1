import Pylyskom.UserArea
import Pylyskom.Collections.Lists

/-!
# When the parsing of user areas ends

`parse_hollerith_string` looks for the first byte that is no white space. If there is none,
it never stops looking, since the empty byte string at the end is taken for white space.
This module says for which inputs the loops of the parser end.
-/

namespace Pylyskom

variable {α β : Type}

namespace Loops

/-- Enough iterations of the loops of `f` give the result `x`, and fewer give none. A
result `none` means that no number of iterations is enough. -/
structure Reaches (f : (fuel : ℕ) → Loops α) (x : Loops α) : Prop where
  always : ∀ fuel, f fuel = ExceptT.mk none ∨ f fuel = x
  eventually : ∃ enough, ∀ fuel, enough ≤ fuel → f fuel = x

/-- A value or an exception is reached after finitely many iterations. -/
def Terminates (f : (fuel : ℕ) → Loops α) : Prop := ∃ fuel, f fuel ≠ ExceptT.mk none

theorem cases_of (x : Loops α) : x = ExceptT.mk none ∨ (∃ e, x = throw e) ∨ ∃ a, x = pure a := by
  match x with
  | none => exact Or.inl rfl
  | some (.error e) => exact Or.inr (Or.inl ⟨e, rfl⟩)
  | some (.ok a) => exact Or.inr (Or.inr ⟨a, rfl⟩)

theorem none_bind (g : α → Loops β) : (ExceptT.mk none : Loops α) >>= g = ExceptT.mk none := rfl

theorem throw_bind (e : Exn) (g : α → Loops β) : (throw e : Loops α) >>= g = throw e := rfl

theorem throw_ne_none (e : Exn) : (throw e : Loops α) ≠ ExceptT.mk none := by
  intro h
  exact nomatch h

namespace Reaches

variable {f f' : ℕ → Loops α} {x y : Loops α}

theorem const (x : Loops α) : Reaches (fun _ => x) x := ⟨fun _ => Or.inr rfl, 0, fun _ _ => rfl⟩

theorem unique (hx : Reaches f x) (hy : Reaches f y) : x = y := by
  obtain ⟨n, hn⟩ := hx.eventually
  obtain ⟨m, hm⟩ := hy.eventually
  rw [← hn (max n m) (by omega), hm (max n m) (by omega)]

theorem terminates_iff (h : Reaches f x) : Terminates f ↔ x ≠ ExceptT.mk none := by
  constructor
  · rintro ⟨fuel, hfuel⟩ rfl
    rcases h.always fuel with hnone | hnone
    · exact hfuel hnone
    · exact hfuel hnone
  · intro hx
    obtain ⟨n, hn⟩ := h.eventually
    exact ⟨n, by rw [hn n (Nat.le_refl n)]; exact hx⟩

/-- One computation after another. -/
theorem bind {g : α → ℕ → Loops β} {z : α → Loops β} (hf : Reaches f x)
    (hg : ∀ a, x = pure a → Reaches (g a) (z a)) :
    Reaches (fun fuel => f fuel >>= fun a => g a fuel) (x >>= z) := by
  obtain ⟨n, hn⟩ := hf.eventually
  rcases cases_of x with rfl | ⟨e, rfl⟩ | ⟨a, rfl⟩
  · constructor
    · intro fuel
      have hnone : f fuel = ExceptT.mk none := by
        rcases hf.always fuel with h | h
        · exact h
        · exact h
      exact Or.inl (by rw [hnone, none_bind])
    · exact ⟨n, fun fuel hfuel => by rw [hn fuel hfuel, none_bind, none_bind]⟩
  · constructor
    · intro fuel
      rcases hf.always fuel with h | h
      · exact Or.inl (by rw [h, none_bind])
      · exact Or.inr (by rw [h, throw_bind, throw_bind])
    · exact ⟨n, fun fuel hfuel => by rw [hn fuel hfuel, throw_bind, throw_bind]⟩
  · obtain ⟨m, hm⟩ := (hg a rfl).eventually
    constructor
    · intro fuel
      rcases hf.always fuel with h | h
      · exact Or.inl (by rw [h, none_bind])
      · rw [h, pure_bind, pure_bind]
        exact (hg a rfl).always fuel
    · refine ⟨max n m, fun fuel hfuel => ?_⟩
      rw [hn fuel (by omega), pure_bind, pure_bind]
      exact hm fuel (by omega)

/-- An iteration takes some fuel. -/
theorem succ (h : Reaches f x) (hzero : f' 0 = ExceptT.mk none)
    (hsucc : ∀ fuel, f' (fuel + 1) = f fuel) : Reaches f' x := by
  obtain ⟨n, hn⟩ := h.eventually
  constructor
  · intro fuel
    cases fuel with
    | zero => exact Or.inl hzero
    | succ fuel =>
      rw [hsucc]
      exact h.always fuel
  · refine ⟨n + 1, fun fuel hfuel => ?_⟩
    obtain ⟨fuel, rfl⟩ : ∃ k, fuel = k + 1 := ⟨fuel - 1, by omega⟩
    rw [hsucc]
    exact hn fuel (by omega)

end Reaches

end Loops

open Loops

/-! ## One string -/

/-- White space, and nothing else. -/
def Blank (hstring : Bytes) : Prop := hstring ≠ [] ∧ ∀ c ∈ hstring, whitespace.contains c = true

/-- The number with the given digits, which may be none. -/
def lengthOf (num : Bytes) : ℕ := num.foldl (fun n c => n * 10 + (c.toNat - ord0)) 0

/-- The bytes start with white space, a length and an `H`. The string that follows is `s`,
which may be cut short, and `rest` is left after it. -/
def Item (hstring s rest : Bytes) : Prop :=
  ∃ pre num tail, hstring = pre ++ (num ++ 'H'.toUInt8 :: tail) ∧
    (∀ c ∈ pre, whitespace.contains c = true) ∧ (∀ c ∈ num, digits.contains c = true) ∧
    s = tail.take (lengthOf num) ∧ rest = tail.drop (lengthOf num)

theorem Item.length_lt {hstring s rest : Bytes} (h : Item hstring s rest) :
    rest.length < hstring.length := by
  obtain ⟨pre, num, tail, rfl, -, -, -, rfl⟩ := h
  simp only [List.length_append, List.length_cons, List.length_drop]
  omega

theorem skipWhitespace_none {s : Bytes} (h : ∀ c ∈ s, whitespace.contains c = true) (fuel : ℕ) :
    skipWhitespace fuel s = none := by
  induction fuel generalizing s with
  | zero => rfl
  | succ fuel ih =>
    cases s with
    | nil => exact ih h
    | cons c s =>
      rw [skipWhitespace, if_pos (h c List.mem_cons_self)]
      exact ih fun x hx => h x (List.mem_cons_of_mem c hx)

/-- Looking for the first byte that is no white space. -/
theorem skipWhitespace_cases (fuel : ℕ) {pre : Bytes}
    (hpre : ∀ c ∈ pre, whitespace.contains c = true) {c : UInt8}
    (hc : whitespace.contains c = false) (s : Bytes) :
    skipWhitespace fuel (pre ++ c :: s) = none ∨
      skipWhitespace fuel (pre ++ c :: s) = some (c :: s) := by
  induction pre generalizing fuel with
  | nil =>
    cases fuel with
    | zero => exact Or.inl rfl
    | succ fuel =>
      rw [List.nil_append, skipWhitespace, if_neg (by rw [hc]; exact Bool.false_ne_true)]
      exact Or.inr rfl
  | cons w pre ih =>
    cases fuel with
    | zero => exact Or.inl rfl
    | succ fuel =>
      rw [List.cons_append, skipWhitespace, if_pos (hpre w List.mem_cons_self)]
      exact ih fuel fun x hx => hpre x (List.mem_cons_of_mem w hx)

theorem parseLength_digits {cs : Bytes} (hcs : ∀ c ∈ cs, digits.contains c = true) (length : ℕ) :
    parseLength length cs = .error (.builtinError .typeError) := by
  induction cs generalizing length with
  | nil => rfl
  | cons c cs ih =>
    rw [parseLength, if_pos (hcs c List.mem_cons_self)]
    exact ih (fun x hx => hcs x (List.mem_cons_of_mem c hx)) _

theorem reaches_empty : Reaches (fun fuel => parseHollerithString fuel (some []))
    (pure (none, some [])) := Reaches.const _

theorem reaches_none : Reaches (fun fuel => parseHollerithString fuel none)
    (pure (none, none)) := Reaches.const _

/-- What `parse_hollerith_string` does when its length has been parsed. -/
def afterLength : Except Exn (ℕ × UInt8 × Bytes) → Loops (Option Bytes × Option Bytes)
  | .error e => throw e
  | .ok (length, c, hstring) =>
    if c ≠ 'H'.toUInt8 then
      throw (.builtinError (.exception "Not a valid hollerith string".toList))
    else return (some (hstring.take length), some (hstring.drop length))

theorem parseHollerithString_of_skip_none {fuel : ℕ} {hstring : Bytes} (hne : hstring ≠ [])
    (h : skipWhitespace fuel hstring = none) :
    parseHollerithString fuel (some hstring) = ExceptT.mk none := by
  obtain ⟨c, s, rfl⟩ := List.exists_cons_of_ne_nil hne
  rw [parseHollerithString]
  · rw [h]
  · simp

theorem parseHollerithString_of_skip_some {fuel : ℕ} {hstring s : Bytes} (hne : hstring ≠ [])
    (h : skipWhitespace fuel hstring = some s) :
    parseHollerithString fuel (some hstring) = afterLength (parseLength 0 s) := by
  obtain ⟨c, s, rfl⟩ := List.exists_cons_of_ne_nil hne
  rw [parseHollerithString]
  · rw [h]
    rfl
  · simp

theorem reaches_blank {hstring : Bytes} (h : Blank hstring) :
    Reaches (fun fuel => parseHollerithString fuel (some hstring)) (ExceptT.mk none) := by
  have hnone := fun fuel =>
    parseHollerithString_of_skip_none h.1 (skipWhitespace_none h.2 fuel)
  exact ⟨fun fuel => Or.inl (hnone fuel), 0, fun fuel _ => hnone fuel⟩

/-- After the white space the result is that of the rest of the function. -/
theorem reaches_afterLength {pre t : Bytes} (hpre : ∀ c ∈ pre, whitespace.contains c = true)
    {c : UInt8} (hc : whitespace.contains c = false) :
    Reaches (fun fuel => parseHollerithString fuel (some (pre ++ c :: t)))
      (afterLength (parseLength 0 (c :: t))) := by
  have hne : pre ++ c :: t ≠ [] := by simp
  constructor
  · intro fuel
    rcases skipWhitespace_cases fuel hpre hc t with hskip | hskip
    · exact Or.inl (parseHollerithString_of_skip_none hne hskip)
    · exact Or.inr (parseHollerithString_of_skip_some hne hskip)
  · refine ⟨pre.length + 1, fun fuel hfuel => ?_⟩
    have hskip := skipWhitespace_append hpre hc t (show pre.length < fuel by omega)
    exact parseHollerithString_of_skip_some hne hskip

theorem reaches_item {hstring s rest : Bytes} (h : Item hstring s rest) :
    Reaches (fun fuel => parseHollerithString fuel (some hstring)) (pure (some s, some rest)) := by
  obtain ⟨pre, num, tail, rfl, hpre, hnum, rfl, rfl⟩ := h
  have hletter : digits.contains 'H'.toUInt8 = false ∧ whitespace.contains 'H'.toUInt8 = false := by
    decide
  have hlength : afterLength (parseLength 0 (num ++ 'H'.toUInt8 :: tail)) =
      pure (some (tail.take (lengthOf num)), some (tail.drop (lengthOf num))) := by
    rw [parseLength_append hnum hletter.1]
    rfl
  rw [← hlength]
  cases num with
  | nil => exact reaches_afterLength hpre hletter.2
  | cons c num =>
    exact reaches_afterLength hpre (not_whitespace_of_digit (hnum c List.mem_cons_self))

/-- Bytes that are not empty are blank, start with a string, or are no valid string. -/
theorem item_cases (hstring : Bytes) (hne : hstring ≠ []) :
    Blank hstring ∨ (∃ s rest, Item hstring s rest) ∨
      ∃ e, Reaches (fun fuel => parseHollerithString fuel (some hstring)) (throw e) := by
  obtain ⟨pre, t, rfl, hpre, rfl | ⟨c, t, rfl, hc⟩⟩ := exists_front whitespace.contains hstring
  · rw [List.append_nil] at hne ⊢
    exact Or.inl ⟨hne, hpre⟩
  · right
    obtain ⟨num, u, heq, hnum, rfl | ⟨d, u, rfl, hd⟩⟩ := exists_front digits.contains (c :: t)
    · rw [List.append_nil] at heq
      have hreaches := reaches_afterLength (t := t) hpre hc
      rw [heq] at hreaches ⊢
      rw [parseLength_digits hnum] at hreaches
      exact Or.inr ⟨_, hreaches⟩
    · by_cases hletter : d = 'H'.toUInt8
      · subst hletter
        exact Or.inl ⟨_, _, pre, num, u, by rw [heq], hpre, hnum, rfl, rfl⟩
      · have hreaches := reaches_afterLength (t := t) hpre hc
        rw [heq] at hreaches ⊢
        rw [parseLength_append hnum hd, afterLength, if_pos hletter] at hreaches
        exact Or.inr ⟨_, hreaches⟩

theorem Item.unique {hstring s rest s' rest' : Bytes} (h : Item hstring s rest)
    (h' : Item hstring s' rest') : s = s' ∧ rest = rest' := by
  have heq := Loops.pure_inj.mp ((reaches_item h).unique (reaches_item h'))
  simpa using heq

theorem Item.not_blank {hstring s rest : Bytes} (h : Item hstring s rest) : ¬ Blank hstring := by
  intro hblank
  exact Loops.none_ne_pure ((reaches_blank hblank).unique (reaches_item h))

theorem Item.not_reaches_throw {hstring s rest : Bytes} (h : Item hstring s rest) {e : Exn} :
    ¬ Reaches (fun fuel => parseHollerithString fuel (some hstring)) (throw e) := by
  intro hthrow
  exact Loops.throw_ne_pure (hthrow.unique (reaches_item h))

/-! ## The names and the blocks -/

/-- The bytes start with strings of the given contents, and `rest` is left after them. -/
def Strings (hstring : Bytes) : List Bytes → Bytes → Prop
  | [], rest => hstring = rest
  | s :: contents, rest => ∃ next, Item hstring s next ∧ Strings next contents rest

/-- After some names, none of them empty, there is only white space. -/
def NamesBlank (hstring : Bytes) : Prop :=
  ∃ names rest, [] ∉ names ∧ Strings hstring names rest ∧ Blank rest

/-- These are the names up to the end, or up to the first empty one. -/
def NamesOf (hstring : Bytes) (names : List Bytes) : Prop :=
  [] ∉ names ∧ ∃ rest, Strings hstring names rest ∧ (rest = [] ∨ ∃ next, Item rest [] next)

/-- After fewer than `n` blocks there is only white space. -/
def BlocksBlank (hstring : Bytes) (n : ℕ) : Prop :=
  ∃ blocks rest, blocks.length < n ∧ Strings hstring blocks rest ∧ Blank rest

theorem namesBlank_iff {hstring : Bytes} : NamesBlank hstring ↔
    Blank hstring ∨ ∃ s next, s ≠ [] ∧ Item hstring s next ∧ NamesBlank next := by
  constructor
  · rintro ⟨names, rest, hnames, hstrings, hblank⟩
    cases names with
    | nil =>
      obtain rfl : hstring = rest := hstrings
      exact Or.inl hblank
    | cons s names =>
      obtain ⟨next, hitem, hstrings⟩ := hstrings
      simp only [List.mem_cons, not_or] at hnames
      exact Or.inr ⟨s, next, Ne.symm hnames.1, hitem, names, rest, hnames.2, hstrings, hblank⟩
  · rintro (hblank | ⟨s, next, hs, hitem, names, rest, hnames, hstrings, hblank⟩)
    · exact ⟨[], hstring, List.not_mem_nil, rfl, hblank⟩
    · refine ⟨s :: names, rest, ?_, ⟨next, hitem, hstrings⟩, hblank⟩
      simp only [List.mem_cons, not_or]
      exact ⟨Ne.symm hs, hnames⟩

theorem namesOf_nil_iff {hstring : Bytes} : NamesOf hstring [] ↔
    hstring = [] ∨ ∃ next, Item hstring [] next := by
  constructor
  · rintro ⟨-, rest, hstrings, hend⟩
    obtain rfl : hstring = rest := hstrings
    exact hend
  · intro hend
    exact ⟨List.not_mem_nil, hstring, rfl, hend⟩

theorem namesOf_cons_iff {hstring s : Bytes} {names : List Bytes} : NamesOf hstring (s :: names) ↔
    s ≠ [] ∧ ∃ next, Item hstring s next ∧ NamesOf next names := by
  constructor
  · rintro ⟨hnames, rest, ⟨next, hitem, hstrings⟩, hend⟩
    simp only [List.mem_cons, not_or] at hnames
    exact ⟨Ne.symm hnames.1, next, hitem, hnames.2, rest, hstrings, hend⟩
  · rintro ⟨hs, next, hitem, hnames, rest, hstrings, hend⟩
    refine ⟨?_, rest, ⟨next, hitem, hstrings⟩, hend⟩
    simp only [List.mem_cons, not_or]
    exact ⟨Ne.symm hs, hnames⟩

theorem not_blocksBlank_zero {hstring : Bytes} : ¬ BlocksBlank hstring 0 := by
  rintro ⟨blocks, rest, hlt, -⟩
  omega

theorem blocksBlank_succ_iff {hstring : Bytes} {n : ℕ} : BlocksBlank hstring (n + 1) ↔
    Blank hstring ∨ ∃ s next, Item hstring s next ∧ BlocksBlank next n := by
  constructor
  · rintro ⟨blocks, rest, hlt, hstrings, hblank⟩
    cases blocks with
    | nil =>
      obtain rfl : hstring = rest := hstrings
      exact Or.inl hblank
    | cons s blocks =>
      obtain ⟨next, hitem, hstrings⟩ := hstrings
      simp only [List.length_cons] at hlt
      exact Or.inr ⟨s, next, hitem, blocks, rest, by omega, hstrings, hblank⟩
  · rintro (hblank | ⟨s, next, hitem, blocks, rest, hlt, hstrings, hblank⟩)
    · exact ⟨[], hstring, by simp, rfl, hblank⟩
    · exact ⟨s :: blocks, rest, by simpa using hlt, ⟨next, hitem, hstrings⟩, hblank⟩

/-- The loop of `parse_block_names` after a string has been parsed. -/
def moreNames : Option Bytes × Option Bytes → (fuel : ℕ) → Loops (List Bytes)
  | (none, _), _ => return []
  | (some [], _), _ => return []
  | (some (c :: blockName), hstring), fuel =>
    return (c :: blockName) :: (← parseBlockNames fuel hstring)

theorem parseBlockNames_succ (fuel : ℕ) (hstring : Option Bytes) :
    parseBlockNames (fuel + 1) hstring =
      parseHollerithString fuel hstring >>= fun r => moreNames r fuel := by
  rw [parseBlockNames]
  refine bind_congr fun r => ?_
  obtain ⟨_ | _ | _, hstring⟩ := r
  · rfl
  · rfl
  · rfl

/-- The loop goes on with what the first string was. -/
theorem Loops.Reaches.blockNames {hstring : Bytes} {r : Option Bytes × Option Bytes}
    {y : Loops (List Bytes)}
    (hx : Reaches (fun fuel => parseHollerithString fuel (some hstring)) (pure r))
    (hy : Reaches (moreNames r) y) :
    Reaches (fun fuel => parseBlockNames fuel (some hstring)) y := by
  have hbind := hx.bind (z := fun _ => y) fun r' hr => by
    rw [← Loops.pure_inj.mp hr]
    exact hy
  rw [pure_bind] at hbind
  exact hbind.succ rfl fun fuel => parseBlockNames_succ fuel _

theorem reaches_moreNames {s next : Bytes} {x : Loops (List Bytes)} (hs : s ≠ [])
    (h : Reaches (fun fuel => parseBlockNames fuel (some next)) x) :
    Reaches (moreNames (some s, some next)) (x >>= fun names => pure (s :: names)) := by
  obtain ⟨c, t, rfl⟩ := List.exists_cons_of_ne_nil hs
  exact h.bind fun names _ => Reaches.const _

theorem NamesOf.reaches {hstring : Bytes} {names : List Bytes} (h : NamesOf hstring names) :
    Reaches (fun fuel => parseBlockNames fuel (some hstring)) (pure names) := by
  induction names generalizing hstring with
  | nil =>
    rcases namesOf_nil_iff.mp h with rfl | ⟨next, hitem⟩
    · exact reaches_empty.blockNames (Reaches.const _)
    · exact (reaches_item hitem).blockNames (Reaches.const _)
  | cons s names ih =>
    obtain ⟨hs, next, hitem, hnames⟩ := namesOf_cons_iff.mp h
    have hmore := reaches_moreNames hs (ih hnames)
    rw [pure_bind] at hmore
    exact (reaches_item hitem).blockNames hmore

theorem Blank.reaches_blockNames {hstring : Bytes} (h : Blank hstring) :
    Reaches (fun fuel => parseBlockNames fuel (some hstring)) (ExceptT.mk none) :=
  ((reaches_blank h).bind (z := fun _ => ExceptT.mk none) fun _ hr =>
    absurd hr Loops.none_ne_pure).succ rfl fun fuel => parseBlockNames_succ fuel _

theorem NamesBlank.reaches {hstring : Bytes} (h : NamesBlank hstring) :
    Reaches (fun fuel => parseBlockNames fuel (some hstring)) (ExceptT.mk none) := by
  obtain ⟨names, rest, hnames, hstrings, hblank⟩ := h
  induction names generalizing hstring with
  | nil =>
    obtain rfl : hstring = rest := hstrings
    exact hblank.reaches_blockNames
  | cons s names ih =>
    obtain ⟨next, hitem, hstrings⟩ := hstrings
    simp only [List.mem_cons, not_or] at hnames
    have hmore := reaches_moreNames (Ne.symm hnames.1) (ih hnames.2 hstrings)
    exact (reaches_item hitem).blockNames hmore

theorem parseBlockNames_cases (hstring : Bytes) : NamesBlank hstring ∨
    (∃ names, NamesOf hstring names) ∨
      ∃ e, Reaches (fun fuel => parseBlockNames fuel (some hstring)) (throw e) := by
  induction hlen : hstring.length using Nat.strongRecOn generalizing hstring with
  | ind n ih =>
    by_cases hne : hstring = []
    · exact Or.inr (Or.inl ⟨[], namesOf_nil_iff.mpr (Or.inl hne)⟩)
    rcases item_cases hstring hne with hblank | ⟨s, next, hitem⟩ | ⟨e, hthrow⟩
    · exact Or.inl (namesBlank_iff.mpr (Or.inl hblank))
    · by_cases hs : s = []
      · subst hs
        exact Or.inr (Or.inl ⟨[], namesOf_nil_iff.mpr (Or.inr ⟨next, hitem⟩)⟩)
      have hlt := hitem.length_lt
      rcases ih next.length (by omega) next rfl with hblank | ⟨names, hnames⟩ | ⟨e, hthrow⟩
      · exact Or.inl (namesBlank_iff.mpr (Or.inr ⟨s, next, hs, hitem, hblank⟩))
      · exact Or.inr (Or.inl ⟨s :: names, namesOf_cons_iff.mpr ⟨hs, next, hitem, hnames⟩⟩)
      · exact Or.inr (Or.inr ⟨e, (reaches_item hitem).blockNames (reaches_moreNames hs hthrow)⟩)
    · refine Or.inr (Or.inr ⟨e, ?_⟩)
      exact (hthrow.bind (z := fun _ => throw e) fun _ hr =>
        absurd hr Loops.throw_ne_pure).succ rfl fun fuel => parseBlockNames_succ fuel _

theorem not_blocksBlank_nil {n : ℕ} : ¬ BlocksBlank [] n := by
  cases n with
  | zero => exact not_blocksBlank_zero
  | succ n =>
    rw [blocksBlank_succ_iff]
    rintro (⟨hne, -⟩ | ⟨s, next, hitem, -⟩)
    · exact hne rfl
    · exact absurd hitem.length_lt (Nat.not_lt_zero _)

/-- The loop of `parse_blocks` goes on for ever exactly if it comes to white space that
nothing follows. -/
theorem reaches_parseBlocks (hstring : Bytes) (names : List Bytes)
    (blocks : Dict Bytes (Option Bytes)) :
    ∃ x, Reaches (fun fuel => parseBlocks fuel (some hstring) blocks names) x ∧
      (x = ExceptT.mk none ↔ BlocksBlank hstring names.length) := by
  induction names generalizing hstring blocks with
  | nil => exact ⟨_, Reaches.const _, iff_of_false Loops.none_ne_pure.symm not_blocksBlank_zero⟩
  | cons name names ih =>
    -- What follows a string that has been parsed.
    have hgoes : ∀ (h : Option Bytes) (next : Bytes),
        Reaches (fun fuel => parseHollerithString fuel (some hstring)) (pure (h, some next)) →
        ∃ x, Reaches (fun fuel => parseBlocks fuel (some hstring) blocks (name :: names)) x ∧
          (x = ExceptT.mk none ↔ BlocksBlank next names.length) := by
      intro h next hparse
      obtain ⟨x, hx, hiff⟩ := ih next (blocks.set name h)
      have hbind := hparse.bind (z := fun _ => x)
        (g := fun r fuel => parseBlocks fuel r.2 (blocks.set name r.1) names) fun r hr => by
          rw [← Loops.pure_inj.mp hr]
          exact hx
      rw [pure_bind] at hbind
      exact ⟨x, hbind, hiff⟩
    by_cases hne : hstring = []
    · subst hne
      obtain ⟨x, hx, hiff⟩ := hgoes none [] reaches_empty
      exact ⟨x, hx, hiff.trans (iff_of_false not_blocksBlank_nil not_blocksBlank_nil)⟩
    rw [List.length_cons, blocksBlank_succ_iff]
    rcases item_cases hstring hne with hblank | ⟨s, next, hitem⟩ | ⟨e, hthrow⟩
    · refine ⟨ExceptT.mk none, ?_, iff_of_true rfl (Or.inl hblank)⟩
      exact (reaches_blank hblank).bind (z := fun _ => ExceptT.mk none) fun _ hr =>
        absurd hr Loops.none_ne_pure
    · obtain ⟨x, hx, hiff⟩ := hgoes (some s) next (reaches_item hitem)
      refine ⟨x, hx, hiff.trans ⟨fun h => Or.inr ⟨s, next, hitem, h⟩, ?_⟩⟩
      rintro (hblank | ⟨s', next', hitem', h⟩)
      · exact absurd hblank hitem.not_blank
      · rw [(hitem.unique hitem').2]
        exact h
    · refine ⟨throw e, ?_, iff_of_false (throw_ne_none e) ?_⟩
      · exact hthrow.bind (z := fun _ => throw e) fun _ hr => absurd hr Loops.throw_ne_pure
      · rintro (hblank | ⟨s, next, hitem, -⟩)
        · exact throw_ne_none e (hthrow.unique (reaches_blank hblank))
        · exact hitem.not_reaches_throw hthrow

/-! ## User areas -/

/-- Somewhere in a user area where the next string is looked for there is only white
space: at its start, after the last of the names, or in the place of one of the blocks. -/
def UserAreaBlank (userArea : Bytes) : Prop :=
  Blank userArea ∨ ∃ hBlockNames hBlocks, Item userArea hBlockNames hBlocks ∧
    (NamesBlank hBlockNames ∨
      ∃ names, NamesOf hBlockNames names ∧ BlocksBlank hBlocks names.length)

theorem terminates_parseHollerithString (hstring : Option Bytes) :
    Terminates (fun fuel => parseHollerithString fuel hstring) ↔
      ∀ s, hstring = some s → ¬ Blank s := by
  match hstring with
  | none => exact iff_of_true (reaches_none.terminates_iff.mpr Loops.none_ne_pure.symm) (by simp)
  | some hstring =>
    have hsome : (∀ s, some hstring = some s → ¬ Blank s) ↔ ¬ Blank hstring := by simp
    rw [hsome]
    by_cases hne : hstring = []
    · subst hne
      exact iff_of_true (reaches_empty.terminates_iff.mpr Loops.none_ne_pure.symm)
        fun hblank => hblank.1 rfl
    rcases item_cases hstring hne with hblank | ⟨s, next, hitem⟩ | ⟨e, hthrow⟩
    · rw [(reaches_blank hblank).terminates_iff]
      exact iff_of_false (fun h => h rfl) fun h => h hblank
    · exact iff_of_true ((reaches_item hitem).terminates_iff.mpr Loops.none_ne_pure.symm)
        hitem.not_blank
    · refine iff_of_true (hthrow.terminates_iff.mpr (throw_ne_none e)) fun hblank => ?_
      exact throw_ne_none e (hthrow.unique (reaches_blank hblank))

theorem reaches_parseBlockNames_none :
    Reaches (fun fuel => parseBlockNames fuel none) (pure []) := by
  have hbind := reaches_none.bind (g := moreNames) (z := fun _ => pure []) fun r hr => by
    rw [← Loops.pure_inj.mp hr]
    exact Reaches.const _
  exact hbind.succ rfl fun fuel => parseBlockNames_succ fuel _

/-- The three parts of `decode_user_area`. -/
theorem reaches_decode {userArea : Bytes} {hBlockNames : Option Bytes} {hBlocks : Bytes}
    {x : Loops (List Bytes)} {z : List Bytes → Loops (Dict Bytes (Option Bytes))}
    (hparse : Reaches (fun fuel => parseHollerithString fuel (some userArea))
      (pure (hBlockNames, some hBlocks)))
    (hnames : Reaches (fun fuel => parseBlockNames fuel hBlockNames) x)
    (hblocks : ∀ names, x = pure names →
      Reaches (fun fuel => parseBlocks fuel (some hBlocks) ∅ names) (z names)) :
    Reaches (fun fuel => decodeUserArea fuel userArea) (x >>= z) := by
  have hrest := hnames.bind (g := fun names fuel => parseBlocks fuel (some hBlocks) ∅ names) hblocks
  have hbind := hparse.bind (z := fun _ => x >>= z)
    (g := fun r fuel => parseBlockNames fuel r.1 >>= fun names => parseBlocks fuel r.2 ∅ names)
    fun r hr => by
      rw [← Loops.pure_inj.mp hr]
      exact hrest
  rw [pure_bind] at hbind
  exact hbind

theorem reaches_decodeUserArea (userArea : Bytes) :
    ∃ x, Reaches (fun fuel => decodeUserArea fuel userArea) x ∧
      (x = ExceptT.mk none ↔ UserAreaBlank userArea) := by
  by_cases hne : userArea = []
  · subst hne
    refine ⟨_, reaches_decode reaches_empty reaches_parseBlockNames_none
      (z := fun _ => pure ∅) fun names hnames => ?_, iff_of_false ?_ ?_⟩
    · rw [← Loops.pure_inj.mp hnames]
      exact Reaches.const _
    · exact Loops.none_ne_pure.symm
    · rintro (hblank | ⟨s, next, hitem, -⟩)
      · exact hblank.1 rfl
      · exact absurd hitem.length_lt (Nat.not_lt_zero _)
  rcases item_cases userArea hne with hblank | ⟨hBlockNames, hBlocks, hitem⟩ | ⟨e, hthrow⟩
  · refine ⟨ExceptT.mk none, ?_, iff_of_true rfl (Or.inl hblank)⟩
    exact (reaches_blank hblank).bind (z := fun _ => ExceptT.mk none) fun _ hr =>
      absurd hr Loops.none_ne_pure
  · have hiff : UserAreaBlank userArea ↔ NamesBlank hBlockNames ∨
        ∃ names, NamesOf hBlockNames names ∧ BlocksBlank hBlocks names.length := by
      constructor
      · rintro (hblank | ⟨s, next, hitem', h⟩)
        · exact absurd hblank hitem.not_blank
        · obtain ⟨rfl, rfl⟩ := hitem.unique hitem'
          exact h
      · intro h
        exact Or.inr ⟨hBlockNames, hBlocks, hitem, h⟩
    rw [hiff]
    rcases parseBlockNames_cases hBlockNames with hblank | ⟨names, hnames⟩ | ⟨e, hthrow⟩
    · exact ⟨_, reaches_decode (reaches_item hitem) hblank.reaches
        (z := fun _ => ExceptT.mk none) fun _ hr => absurd hr Loops.none_ne_pure,
        iff_of_true rfl (Or.inl hblank)⟩
    · obtain ⟨x, hx, hblocks⟩ := reaches_parseBlocks hBlocks names ∅
      refine ⟨_, reaches_decode (reaches_item hitem) hnames.reaches (z := fun _ => x)
        fun names' hr => ?_, ?_⟩
      · rw [← Loops.pure_inj.mp hr]
        exact hx
      · rw [pure_bind, hblocks]
        constructor
        · exact fun h => Or.inr ⟨names, hnames, h⟩
        · rintro (hblank | ⟨names', hnames', h⟩)
          · exact absurd (hblank.reaches.unique hnames.reaches) Loops.none_ne_pure
          · rw [Loops.pure_inj.mp (hnames.reaches.unique hnames'.reaches)]
            exact h
    · refine ⟨_, reaches_decode (reaches_item hitem) hthrow (z := fun _ => ExceptT.mk none)
        fun _ hr => absurd hr Loops.throw_ne_pure, iff_of_false (throw_ne_none e) ?_⟩
      rintro (hblank | ⟨names, hnames, -⟩)
      · exact throw_ne_none e (hthrow.unique hblank.reaches)
      · exact Loops.throw_ne_pure (hthrow.unique hnames.reaches)
  · refine ⟨throw e, ?_, iff_of_false (throw_ne_none e) ?_⟩
    · exact hthrow.bind (z := fun _ => throw e) fun _ hr => absurd hr Loops.throw_ne_pure
    · rintro (hblank | ⟨s, next, hitem, -⟩)
      · exact throw_ne_none e (hthrow.unique (reaches_blank hblank))
      · exact hitem.not_reaches_throw hthrow

theorem terminates_decodeUserArea (userArea : Bytes) :
    Terminates (fun fuel => decodeUserArea fuel userArea) ↔ ¬ UserAreaBlank userArea := by
  obtain ⟨x, hx, hiff⟩ := reaches_decodeUserArea userArea
  rw [hx.terminates_iff, ne_eq, hiff]

/-- **Parsing ends exactly if there is something to parse where a string is looked for.** -/
theorem userAreaParsing_terminates_iff (hstring : Option Bytes) (userArea : Bytes) :
    (Terminates (fun fuel => parseHollerithString fuel hstring) ↔
      ∀ s, hstring = some s → ¬ Blank s) ∧
    (Terminates (fun fuel => decodeUserArea fuel userArea) ↔ ¬ UserAreaBlank userArea) :=
  ⟨terminates_parseHollerithString hstring, terminates_decodeUserArea userArea⟩

/-- A user area with a space after its last name is never decoded. -/
theorem not_terminates_space_after_names :
    ¬ Terminates (fun fuel => parseHollerithString fuel (some (ascii " "))) ∧
      ¬ Terminates (fun fuel => decodeUserArea fuel (ascii "5H 1Ha  2Hxy")) := by
  have hspaces : (ascii " ").all whitespace.contains = true := by decide
  have hfive : (ascii "5").all digits.contains = true := by decide
  have hone : (ascii "1").all digits.contains = true := by decide
  have hall := fun c (hc : c ∈ ascii " ") => List.all_eq_true.mp hspaces c hc
  have hdigits := fun c (hc : c ∈ ascii "5") => List.all_eq_true.mp hfive c hc
  have hdigits' := fun c (hc : c ∈ ascii "1") => List.all_eq_true.mp hone c hc
  have hblank : Blank (ascii " ") := ⟨by decide, hall⟩
  have hitem : Item (ascii "5H 1Ha  2Hxy") (ascii " 1Ha ") (ascii " 2Hxy") :=
    ⟨[], ascii "5", ascii " 1Ha  2Hxy", rfl, by simp, hdigits, rfl, rfl⟩
  have hname : Item (ascii " 1Ha ") (ascii "a") (ascii " ") :=
    ⟨ascii " ", ascii "1", ascii "a ", rfl, hall, hdigits', rfl, rfl⟩
  have hnames : NamesBlank (ascii " 1Ha ") :=
    ⟨[ascii "a"], ascii " ", by decide, ⟨_, hname, rfl⟩, hblank⟩
  constructor
  · rw [terminates_parseHollerithString]
    exact fun h => h _ rfl hblank
  · rw [terminates_decodeUserArea]
    exact fun h => h (Or.inr ⟨_, _, hitem, Or.inl hnames⟩)

end Pylyskom
