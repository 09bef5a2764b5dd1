import Pylyskom.Mime
import Pylyskom.Strings.Numbers

/-!
# `int` of a string

Which characters are digits and blanks for `int`, and which strings it takes.
-/

namespace Pylyskom

/-- The digits zero of Unicode 14, each of which the other nine follow. -/
def decimalZeros : List ℕ :=
  [0x30, 0x660, 0x6f0, 0x7c0, 0x966, 0x9e6, 0xa66, 0xae6, 0xb66, 0xbe6, 0xc66, 0xce6, 0xd66,
   0xde6, 0xe50, 0xed0, 0xf20, 0x1040, 0x1090, 0x17e0, 0x1810, 0x1946, 0x19d0, 0x1a80, 0x1a90,
   0x1b50, 0x1bb0, 0x1c40, 0x1c50, 0xa620, 0xa8d0, 0xa900, 0xa9d0, 0xa9f0, 0xaa50, 0xabf0, 0xff10,
   0x104a0, 0x10d30, 0x11066, 0x110f0, 0x11136, 0x111d0, 0x112f0, 0x11450, 0x114d0, 0x11650,
   0x116c0, 0x11730, 0x118e0, 0x11950, 0x11c50, 0x11d50, 0x11da0, 0x16a60, 0x16ac0, 0x16b50,
   0x1d7ce, 0x1d7d8, 0x1d7e2, 0x1d7ec, 0x1d7f6, 0x1e140, 0x1e2f0, 0x1e950, 0x1fbf0]

/-- `unicodedata.decimal` -/
def decimalValue (c : Char) : Option ℕ :=
  (decimalZeros.find? fun first => first ≤ c.toNat && c.toNat < first + 10).map fun first =>
    c.toNat - first

/-- White space, but in ASCII only that of C, which leaves out four separators. -/
def isBlank (c : Char) : Bool := isSpace c && !(0x1c ≤ c.toNat && c.toNat ≤ 0x1f)

/-- `int(s)`, without a limit on the number of digits. -/
def parseInt (s : Str) : Except Exn ℤ :=
  match readInteger decimalValue isBlank s with
  | some n => .ok n
  | none => .error (.builtinError .valueError)

/-- No digit is white space. -/
theorem decimalZeros_apart : ∀ first ∈ decimalZeros,
    (0x20 < first ∧ first + 10 ≤ 0x85) ∨ (0xa0 < first ∧ first + 10 ≤ 0x1680) ∨
      (0x1680 < first ∧ first + 10 ≤ 0x2000) ∨ 0x3000 < first := by
  decide

theorem isBlank_of_decimalValue {c : Char} {d : ℕ} (h : decimalValue c = some d) :
    isBlank c = false := by
  obtain ⟨first, hfirst, -⟩ := Option.map_eq_some_iff.mp h
  have hapart := decimalZeros_apart first (List.mem_of_find?_eq_some hfirst)
  have hrange := List.find?_some hfirst
  simp only [Bool.and_eq_true, decide_eq_true_eq] at hrange
  have hspace : isSpace c = false := by
    simp only [isSpace, List.mem_cons, List.not_mem_nil, or_false, Bool.or_eq_false_iff,
      decide_eq_false_iff_not, Bool.and_eq_false_iff]
    omega
  rw [isBlank, hspace, Bool.false_and]

theorem separate_decimalValue : Separate decimalValue isBlank where
  underscore := by decide
  plus := by decide
  minus := by decide
  digit_blank := isBlank_of_decimalValue
  plus_blank := by decide
  minus_blank := by decide

/-- `int` takes the strings that write an integer. -/
theorem parseInt_eq_ok_iff {s : Str} {n : ℤ} :
    parseInt s = .ok n ↔ Writes decimalValue isBlank s n := by
  rw [← readInteger_eq_some_iff separate_decimalValue, parseInt]
  cases readInteger decimalValue isBlank s with
  | some m => rw [Except.ok.injEq, Option.some.injEq]
  | none =>
    constructor
    · intro h
      cases h
    · intro h
      cases h

example : parseInt " +1_0\u0661 ".toList = .ok 101 ∧ parseInt "-0".toList = .ok 0 ∧
    parseInt "\x1c5".toList = .error (.builtinError .valueError) := by
  decide

end Pylyskom
