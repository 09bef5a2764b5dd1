import Mathlib.Data.List.DropRight
import Mathlib.Tactic.Common

/-!
# Numbers in strings

Integers in decimal digits, with a sign before them, underscores between the digits and blanks
around them: the grammar, and a reader that follows it. Which characters are blanks and which
are digits is left open.
-/

namespace Pylyskom

/-! ## The grammar -/

section grammar

variable (digit : Char → Option ℕ)

/-- Digits with single underscores between them, and their value. -/
inductive Digits : List Char → ℕ → Prop
  | one {c : Char} {d : ℕ} (hc : digit c = some d) : Digits [c] d
  | next {s : List Char} {n : ℕ} {c : Char} {d : ℕ} (hs : Digits s n) (hc : digit c = some d) :
      Digits (s ++ [c]) (10 * n + d)
  | underscore {s : List Char} {n : ℕ} {c : Char} {d : ℕ} (hs : Digits s n)
      (hc : digit c = some d) : Digits (s ++ ['_', c]) (10 * n + d)

/-- Digits after a sign or none. -/
inductive Signed : List Char → ℤ → Prop
  | plain {s : List Char} {n : ℕ} (hs : Digits digit s n) : Signed s n
  | plus {s : List Char} {n : ℕ} (hs : Digits digit s n) : Signed ('+' :: s) n
  | minus {s : List Char} {n : ℕ} (hs : Digits digit s n) : Signed ('-' :: s) (-n)

/-- A number with blanks around it. -/
def Writes (blank : Char → Bool) (s : List Char) (n : ℤ) : Prop :=
  ∃ before number after, s = before ++ (number ++ after) ∧ (∀ c ∈ before, blank c = true) ∧
    (∀ c ∈ after, blank c = true) ∧ Signed digit number n

/-! ## The reader -/

/-- What comes after digits of the given value. -/
def digitsFrom (n : ℕ) : List Char → Option ℕ
  | [] => some n
  | '_' :: c :: s =>
    match digit c with
    | some d => digitsFrom (10 * n + d) s
    | none => none
  | c :: s =>
    match digit c with
    | some d => digitsFrom (10 * n + d) s
    | none => none

def readDigits : List Char → Option ℕ
  | [] => none
  | c :: s =>
    match digit c with
    | some d => digitsFrom digit d s
    | none => none

def readSigned : List Char → Option ℤ
  | '+' :: s => (readDigits digit s).map fun (n : ℕ) => (n : ℤ)
  | '-' :: s => (readDigits digit s).map fun (n : ℕ) => -(n : ℤ)
  | s => (readDigits digit s).map fun (n : ℕ) => (n : ℤ)

/-- A string without the blanks around it. -/
def trim (blank : Char → Bool) (s : List Char) : List Char :=
  (s.dropWhile blank).rdropWhile blank

def readInteger (blank : Char → Bool) (s : List Char) : Option ℤ :=
  readSigned digit (trim blank s)

end grammar

/-! ## The reader follows the grammar -/

section reader

variable {digit : Char → Option ℕ} {blank : Char → Bool} {s t : List Char} {n m d : ℕ} {c : Char}

theorem digitsFrom_digit (hunderscore : digit '_' = none) (hc : digit c = some d) :
    digitsFrom digit n (c :: s) = digitsFrom digit (10 * n + d) s := by
  have hne : c ≠ '_' := by
    rintro rfl
    rw [hunderscore] at hc
    cases hc
  rw [digitsFrom]
  · rw [hc]
  · rintro c s rfl
    exact absurd rfl hne

theorem digitsFrom_underscore (hc : digit c = some d) :
    digitsFrom digit n ('_' :: c :: s) = digitsFrom digit (10 * n + d) s := by
  rw [digitsFrom, hc]

/-- The value of some digits and what comes after them. -/
theorem digitsFrom_append (hunderscore : digit '_' = none) (h : digitsFrom digit n s = some m) :
    digitsFrom digit n (s ++ t) = digitsFrom digit m t := by
  fun_induction digitsFrom digit n s with
  | case1 n => rw [Option.some.inj h, List.nil_append]
  | case2 n c s d hc ih =>
    rw [List.cons_append, List.cons_append, digitsFrom_underscore hc]
    exact ih h
  | case3 n c s hc => cases h
  | case4 n c s _ d hc ih =>
    rw [List.cons_append, digitsFrom_digit hunderscore hc]
    exact ih h
  | case5 n c s _ hc => cases h

theorem Digits.of_digitsFrom (hs : Digits digit s n) (h : digitsFrom digit n t = some m) :
    Digits digit (s ++ t) m := by
  fun_induction digitsFrom digit n t generalizing s with
  | case1 n =>
    obtain rfl := Option.some.inj h
    rwa [List.append_nil]
  | case2 n c t d hc ih =>
    have hrest := ih (.underscore hs hc) h
    rwa [List.append_assoc] at hrest
  | case3 n c t hc => cases h
  | case4 n c t _ d hc ih =>
    have hrest := ih (.next hs hc) h
    rwa [List.append_assoc] at hrest
  | case5 n c t _ hc => cases h

theorem readDigits_append (hunderscore : digit '_' = none) (h : readDigits digit s = some n) :
    readDigits digit (s ++ t) = digitsFrom digit n t := by
  cases s with
  | nil => cases h
  | cons c s =>
    rw [readDigits] at h
    rw [List.cons_append, readDigits]
    cases hc : digit c with
    | none =>
      rw [hc] at h
      cases h
    | some d =>
      rw [hc] at h
      exact digitsFrom_append hunderscore h

theorem readDigits_eq_some_iff (hunderscore : digit '_' = none) :
    readDigits digit s = some n ↔ Digits digit s n := by
  constructor
  · intro h
    cases s with
    | nil => cases h
    | cons c s =>
      rw [readDigits] at h
      cases hc : digit c with
      | none =>
        rw [hc] at h
        cases h
      | some d =>
        rw [hc] at h
        exact Digits.of_digitsFrom (.one hc) h
  · intro h
    induction h with
    | one hc => simp only [readDigits, hc, digitsFrom]
    | next hs hc ih =>
      rw [readDigits_append hunderscore ih, digitsFrom_digit hunderscore hc, digitsFrom]
    | underscore hs hc ih =>
      rw [readDigits_append hunderscore ih, digitsFrom_underscore hc, digitsFrom]

/-- Digits begin and end with a digit. -/
theorem Digits.ends (h : Digits digit s n) :
    (∃ c rest d, s = c :: rest ∧ digit c = some d) ∧
      ∃ c init d, s = init ++ [c] ∧ digit c = some d := by
  induction h with
  | @one c d hc => exact ⟨⟨c, [], d, rfl, hc⟩, c, [], d, rfl, hc⟩
  | @next s n c d hs hc ih =>
    obtain ⟨⟨first, rest, value, rfl, hfirst⟩, -⟩ := ih
    exact ⟨⟨first, rest ++ [c], value, rfl, hfirst⟩, c, _, d, rfl, hc⟩
  | @underscore s n c d hs hc ih =>
    obtain ⟨⟨first, rest, value, rfl, hfirst⟩, -⟩ := ih
    refine ⟨⟨first, rest ++ ['_', c], value, rfl, hfirst⟩, c, (first :: rest) ++ ['_'], d, ?_, hc⟩
    rw [List.append_assoc, List.singleton_append]

/-- The signs and the underscore are no digits, and no digit or sign is a blank. -/
structure Separate (digit : Char → Option ℕ) (blank : Char → Bool) : Prop where
  underscore : digit '_' = none
  plus : digit '+' = none
  minus : digit '-' = none
  digit_blank : ∀ {c d}, digit c = some d → blank c = false
  plus_blank : blank '+' = false
  minus_blank : blank '-' = false

theorem readSigned_eq_some_iff (hsep : Separate digit blank) {n : ℤ} :
    readSigned digit s = some n ↔ Signed digit s n := by
  constructor
  · intro h
    unfold readSigned at h
    split at h
    all_goals
      obtain ⟨value, hvalue, rfl⟩ := Option.map_eq_some_iff.mp h
      rw [readDigits_eq_some_iff hsep.underscore] at hvalue
    · exact .plus hvalue
    · exact .minus hvalue
    · exact .plain hvalue
  · intro h
    cases h with
    | @plain s n hs =>
      obtain ⟨⟨c, rest, d, rfl, hc⟩, -⟩ := hs.ends
      rw [readSigned]
      · rw [(readDigits_eq_some_iff hsep.underscore).mpr hs]
        rfl
      · intro s heq
        rw [(List.cons.inj heq).1, hsep.plus] at hc
        cases hc
      · intro s heq
        rw [(List.cons.inj heq).1, hsep.minus] at hc
        cases hc
    | plus hs =>
      rw [readSigned, (readDigits_eq_some_iff hsep.underscore).mpr hs]
      rfl
    | minus hs =>
      rw [readSigned, (readDigits_eq_some_iff hsep.underscore).mpr hs]
      rfl

/-- A number neither begins nor ends with a blank. -/
theorem Signed.ends (hsep : Separate digit blank) {n : ℤ} (h : Signed digit s n) :
    (∃ c rest, s = c :: rest ∧ blank c = false) ∧ ∃ c init, s = init ++ [c] ∧ blank c = false := by
  cases h with
  | plain hs =>
    obtain ⟨⟨c, rest, d, hfirst, hc⟩, last, init, e, hlast, hend⟩ := hs.ends
    exact ⟨⟨c, rest, hfirst, hsep.digit_blank hc⟩, last, init, hlast, hsep.digit_blank hend⟩
  | @plus s n hs =>
    obtain ⟨-, last, init, e, rfl, hend⟩ := hs.ends
    exact ⟨⟨'+', _, rfl, hsep.plus_blank⟩, last, '+' :: init, rfl, hsep.digit_blank hend⟩
  | @minus s n hs =>
    obtain ⟨-, last, init, e, rfl, hend⟩ := hs.ends
    exact ⟨⟨'-', _, rfl, hsep.minus_blank⟩, last, '-' :: init, rfl, hsep.digit_blank hend⟩

/-- What is around a string without blanks at its ends. -/
theorem trim_eq {before number after : List Char} (hbefore : ∀ c ∈ before, blank c = true)
    (hafter : ∀ c ∈ after, blank c = true) (hfirst : ∃ c rest, number = c :: rest ∧ blank c = false)
    (hlast : ∃ c init, number = init ++ [c] ∧ blank c = false) :
    trim blank (before ++ (number ++ after)) = number := by
  have hfront : (before ++ (number ++ after)).dropWhile blank = number ++ after := by
    obtain ⟨c, rest, rfl, hc⟩ := hfirst
    rw [List.dropWhile_append_of_pos hbefore, List.cons_append,
      List.dropWhile_cons_of_neg (by rw [hc]; decide)]
  have hback : (after.reverse ++ number.reverse).dropWhile blank = number.reverse := by
    obtain ⟨c, init, rfl, hc⟩ := hlast
    rw [List.dropWhile_append_of_pos fun c hc => hafter c (List.mem_reverse.mp hc),
      List.reverse_append, List.reverse_singleton, List.singleton_append,
      List.dropWhile_cons_of_neg (by rw [hc]; decide)]
  rw [trim, hfront, List.rdropWhile, List.reverse_append, hback, List.reverse_reverse]

theorem exists_trim (blank : Char → Bool) (s : List Char) :
    ∃ before after, s = before ++ (trim blank s ++ after) ∧ (∀ c ∈ before, blank c = true) ∧
      ∀ c ∈ after, blank c = true := by
  refine ⟨s.takeWhile blank, (s.dropWhile blank).rtakeWhile blank, ?_, ?_, ?_⟩
  · rw [trim, List.rdropWhile_append_rtakeWhile, List.takeWhile_append_dropWhile]
  · exact fun c hc => List.mem_takeWhile_imp hc
  · exact fun c hc => List.mem_rtakeWhile_imp hc

/-- **The reader** takes the strings of the grammar, with their values. -/
theorem readInteger_eq_some_iff (hsep : Separate digit blank) {n : ℤ} :
    readInteger digit blank s = some n ↔ Writes digit blank s n := by
  rw [readInteger, readSigned_eq_some_iff hsep]
  constructor
  · intro h
    obtain ⟨before, after, hs, hbefore, hafter⟩ := exists_trim blank s
    exact ⟨before, _, after, hs, hbefore, hafter, h⟩
  · rintro ⟨before, number, after, rfl, hbefore, hafter, h⟩
    obtain ⟨hfirst, hlast⟩ := h.ends hsep
    rwa [trim_eq hbefore hafter hfirst hlast]

/-- A string writes only one number. -/
theorem Writes.unique (hsep : Separate digit blank) {n m : ℤ} (hn : Writes digit blank s n)
    (hm : Writes digit blank s m) : n = m := by
  rw [← readInteger_eq_some_iff hsep] at hn hm
  exact Option.some.inj (hn.symm.trans hm)

end reader

end Pylyskom
