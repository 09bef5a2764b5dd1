import Pylyskom.Reader.Program
import Pylyskom.Errors

/-!
# The lexical level of Protocol A

The functions of `protocol.py`: skipping white space, reading integers and floats
from a receive buffer, and writing Hollerith strings.
-/

namespace Pylyskom

/-- Python's byte strings. -/
abbrev Bytes := List UInt8

/-- What a class method `parse` is: a program that reads from the receive buffer. -/
abbrev Parser := Reader Exn

/-- An ASCII literal as a byte string. -/
def ascii (s : String) : Bytes := s.toList.map Char.toUInt8

def whitespace : Bytes := ascii " \t\r\n"

def digits : Bytes := ascii "01234567890"

def floatChars : Bytes := digits ++ ascii "eE.-+"

def ord0 : ℕ := '0'.toNat

/-- Skip whitespace and return first non-whitespace character. -/
def readFirstNonWs : Parser UInt8 := do
  let c ← Reader.char
  let (_, c) ← Reader.whileIn whitespace.contains (fun _ _ => ()) () c
  return c

/-- Get an integer and next character from the receive buffer. -/
def readIntAndNext : Parser (ℕ × UInt8) := do
  let c ← readFirstNonWs
  Reader.whileIn digits.contains (fun n c => n * 10 + (c.toNat - ord0)) 0 c

/-- Get an integer from the receive buffer (discard next character). -/
def readInt : Parser ℕ := do
  let (c, _) ← readIntAndNext
  return c

/-- The number that a Python float literal denotes, before it is rounded to a double:
`mantissa * 10 ^ exponent`, with the sign kept apart because of `-0.0`. -/
structure PyFloat where
  negative : Bool
  mantissa : ℕ
  exponent : ℤ
  deriving DecidableEq, Repr

namespace PyFloat

/-- An optional sign at the start of a literal. -/
def takeSign : Bytes → Bool × Bytes
  | [] => (false, [])
  | c :: s => if c = '-'.toUInt8 then (true, s) else if c = '+'.toUInt8 then (false, s)
    else (false, c :: s)

/-- The value of a string of digits. -/
def digitsValue (s : Bytes) : ℕ := s.foldl (fun n c => n * 10 + (c.toNat - ord0)) 0

/-- The fraction part of a literal, if it has one. -/
def takeFraction : Bytes → Bytes × Bytes
  | [] => ([], [])
  | c :: s => if c = '.'.toUInt8 then s.span digits.contains else ([], c :: s)

/-- The exponent part that ends a literal. -/
def takeExponent : Bytes → Option ℤ
  | [] => some 0
  | c :: s =>
    if c = 'e'.toUInt8 ∨ c = 'E'.toUInt8 then
      let (negative, s) := takeSign s
      if s ≠ [] ∧ s.all digits.contains then
        some (if negative then -(digitsValue s : ℤ) else digitsValue s)
      else none
    else none

/-- Python's `float` on a byte string of digits, signs, points and exponent marks. -/
def ofBytes (s : Bytes) : Option PyFloat :=
  let (negative, s) := takeSign s
  let (whole, s) := s.span digits.contains
  let (fraction, s) := takeFraction s
  if whole ++ fraction = [] then none
  else (takeExponent s).map fun e =>
    ⟨negative, digitsValue (whole ++ fraction), e - fraction.length⟩

example : ofBytes (ascii "1.2e-02") = some ⟨false, 12, -3⟩ := by decide

end PyFloat

/-- Get a float from the receive buffer (discard next character). -/
def readFloat : Parser PyFloat := do
  let c ← readFirstNonWs
  let (digs, _) ← Reader.whileIn floatChars.contains (fun digs c => digs ++ [c]) [] c
  match PyFloat.ofBytes digs with
  | some x => return x
  | none => Reader.raise (.builtinError .valueError)

/-- Python's `b"%d" % n` for a natural number. -/
def decimal (n : ℕ) : Bytes := (Nat.toDigits 10 n).map Char.toUInt8

/-- To Hollerith byte string. -/
def toHstring (s : Bytes) : Bytes := decimal s.length ++ ascii "H" ++ s

/-! ## What the lexical functions read -/

theorem decimal_ne_nil (n : ℕ) : decimal n ≠ [] := by
  simp [decimal, Nat.toDigits_ne_nil]

/-- The ten digits, as characters and as bytes. -/
theorem digit_toUInt8 {c : Char} (hc : c.isDigit = true) :
    digits.contains c.toUInt8 = true ∧ c.toUInt8.toNat = c.toNat := by
  obtain ⟨h1, h2⟩ : 48 ≤ c.toNat ∧ c.toNat ≤ 57 := by
    simp only [Char.isDigit, ge_iff_le, Bool.and_eq_true, decide_eq_true_eq] at hc
    exact ⟨hc.1, hc.2⟩
  have hnat : c.toUInt8.toNat = c.toNat := by
    simp only [Char.toUInt8, UInt32.toNat_toUInt8]
    change c.toNat % 2 ^ 8 = c.toNat
    omega
  refine ⟨?_, hnat⟩
  have hall : ∀ k < 10, digits.contains (UInt8.ofNat (48 + k)) = true := by decide
  have hk := hall (c.toNat - 48) (by omega)
  have heq : c.toUInt8 = UInt8.ofNat (48 + (c.toNat - 48)) := by
    apply UInt8.toNat_inj.mp
    rw [hnat, UInt8.toNat_ofNat']
    omega
  rw [heq]
  exact hk

theorem contains_digits_of_mem_decimal {n : ℕ} {c : UInt8} (hc : c ∈ decimal n) :
    digits.contains c = true := by
  obtain ⟨ch, hch, rfl⟩ := List.mem_map.mp hc
  exact (digit_toUInt8 (Nat.isDigit_of_mem_toDigits (by omega) (by omega) hch)).1

theorem foldl_digits {cs : List Char} (hcs : ∀ c ∈ cs, c.isDigit = true) (init : ℕ) :
    (cs.map Char.toUInt8).foldl (fun n c => n * 10 + (c.toNat - ord0)) init =
      Nat.ofDigitChars 10 cs init := by
  induction cs generalizing init with
  | nil => rfl
  | cons c cs ih =>
    have hc := (digit_toUInt8 (hcs c (by simp))).2
    rw [List.map_cons, List.foldl_cons, ih (fun d hd => hcs d (by simp [hd])),
      Nat.ofDigitChars_cons, hc, Nat.mul_comm init 10]
    rfl

/-- The loop of `read_int_and_next` computes the number that `%d` wrote. -/
theorem foldl_decimal (n : ℕ) :
    (decimal n).foldl (fun n c => n * 10 + (c.toNat - ord0)) 0 = n := by
  rw [decimal, foldl_digits fun c hc => Nat.isDigit_of_mem_toDigits (by omega) (by omega) hc]
  exact Nat.ofDigitChars_ten_toDigits

/-- Sets of bytes that share none. -/
theorem not_contains_of_all {s t : Bytes} (h : s.all (fun c => !t.contains c) = true) {c : UInt8}
    (hc : s.contains c = true) : t.contains c = false := by
  have hnot := List.all_eq_true.mp h c (by simpa using hc)
  simpa using hnot

theorem not_whitespace_of_digit {c : UInt8} (hc : digits.contains c = true) :
    whitespace.contains c = false :=
  not_contains_of_all (by decide) hc

theorem not_digit_of_whitespace {c : UInt8} (hc : whitespace.contains c = true) :
    digits.contains c = false :=
  not_contains_of_all (by decide) hc

/-- White space before a byte is skipped. -/
theorem run_readFirstNonWs {pre : Bytes} (hpre : ∀ c ∈ pre, whitespace.contains c = true)
    {c : UInt8} (hc : whitespace.contains c = false) (s : Bytes) :
    readFirstNonWs.run (pre ++ c :: s) = .returned c s := by
  cases pre with
  | nil =>
    simp [readFirstNonWs, Reader.whileIn, Reader.run, Reader.scanList_stop hc]
  | cons w pre =>
    have hscan := Reader.scanList_append (s := s) (hpre w (by simp))
      (fun x hx => hpre x (List.mem_cons_of_mem w hx)) hc
    simp [readFirstNonWs, Reader.whileIn, Reader.run, hscan]

/-- An integer is read up to the first byte that is no digit, which is read as well. -/
theorem run_readIntAndNext {pre : Bytes} (hpre : ∀ c ∈ pre, whitespace.contains c = true)
    (n : ℕ) {d : UInt8} (hd : digits.contains d = false) (rest : Bytes) :
    readIntAndNext.run (pre ++ decimal n ++ d :: rest) = .returned (n, d) rest := by
  obtain ⟨c, cs, hdec⟩ := List.exists_cons_of_ne_nil (decimal_ne_nil n)
  have hdigit : ∀ x ∈ c :: cs, digits.contains x = true := fun x hx =>
    contains_digits_of_mem_decimal (hdec ▸ hx)
  have hfirst := run_readFirstNonWs hpre (not_whitespace_of_digit (hdigit c (by simp)))
    (cs ++ d :: rest)
  have hscan := Reader.scanList_append (s := rest) (hdigit c (by simp))
    (fun x hx => hdigit x (List.mem_cons_of_mem c hx)) hd
  have hfold := foldl_decimal n
  rw [hdec] at hfold ⊢
  simp only [readIntAndNext, Reader.run_bind, List.append_assoc, List.cons_append, hfirst,
    Outcome.andThen_returned, Reader.whileIn, Reader.run, hscan, hfold]

end Pylyskom
