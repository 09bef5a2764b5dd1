import Mathlib.Algebra.Group.Nat.Defs
import Mathlib.Data.List.Lex
import Mathlib.Tactic.Common

/-!
# Numbers of a fixed width

Numbers that are padded with zeros to the same width are in the order of their digits, and
so are lines of such numbers.
-/

namespace Pylyskom

/-- Strings whose first parts are of the same length. -/
theorem append_lt_append_iff {α : Type} [LT α] {s t : List α}
    (hlen : s.length = t.length) (u v : List α) :
    s ++ u < t ++ v ↔ s < t ∨ s = t ∧ u < v := by
  induction s generalizing t with
  | nil =>
    obtain rfl := List.length_eq_zero_iff.mp hlen.symm
    simp
  | cons a s ih =>
    obtain ⟨b, t, rfl⟩ := List.exists_cons_of_length_eq_add_one hlen.symm
    have htail := ih (Nat.succ.inj hlen)
    rw [List.cons_append, List.cons_append, List.cons_lt_cons_iff, List.cons_lt_cons_iff, htail,
      List.cons.injEq]
    tauto

/-- The last digits of a number. -/
def fixedDigits : (width n : ℕ) → List Char
  | 0, _ => []
  | width + 1, n => fixedDigits width (n / 10) ++ [(n % 10).digitChar]

@[simp] theorem length_fixedDigits (width n : ℕ) : (fixedDigits width n).length = width := by
  induction width generalizing n with
  | zero => rfl
  | succ width ih => simp [fixedDigits, ih]

theorem digitChar_lt_iff {a b : ℕ} (ha : a < 10) (hb : b < 10) :
    a.digitChar < b.digitChar ↔ a < b := by
  have hall : ∀ a < 10, ∀ b < 10, a.digitChar < b.digitChar ↔ a < b := by decide
  exact hall a ha b hb

theorem digitChar_inj {a b : ℕ} (ha : a < 10) (hb : b < 10) :
    a.digitChar = b.digitChar ↔ a = b := by
  have hall : ∀ a < 10, ∀ b < 10, a.digitChar = b.digitChar ↔ a = b := by decide
  exact hall a ha b hb

theorem fixedDigits_inj {width n m : ℕ} (hn : n < 10 ^ width) (hm : m < 10 ^ width) :
    fixedDigits width n = fixedDigits width m ↔ n = m := by
  induction width generalizing n m with
  | zero =>
    have hn : n = 0 := by simpa using hn
    have hm : m = 0 := by simpa using hm
    simp [hn, hm]
  | succ width ih =>
    rw [Nat.pow_succ] at hn hm
    have hhigh := ih (show n / 10 < 10 ^ width by omega) (show m / 10 < 10 ^ width by omega)
    have hlow := digitChar_inj (Nat.mod_lt n (by decide)) (Nat.mod_lt m (by decide))
    refine ⟨fun h => ?_, fun h => by rw [h]⟩
    obtain ⟨hhigher, hlower⟩ := List.append_inj h (by simp)
    have hdiv := hhigh.mp hhigher
    have hmod := hlow.mp (List.cons.inj hlower).1
    omega

theorem fixedDigits_lt_iff {width n m : ℕ} (hn : n < 10 ^ width) (hm : m < 10 ^ width) :
    fixedDigits width n < fixedDigits width m ↔ n < m := by
  induction width generalizing n m with
  | zero =>
    have hn : n = 0 := by simpa using hn
    have hm : m = 0 := by simpa using hm
    simp [fixedDigits, hn, hm]
  | succ width ih =>
    rw [Nat.pow_succ] at hn hm
    have hhigh := ih (show n / 10 < 10 ^ width by omega) (show m / 10 < 10 ^ width by omega)
    have hlow := digitChar_lt_iff (Nat.mod_lt n (by decide)) (Nat.mod_lt m (by decide))
    have heq := fixedDigits_inj (show n / 10 < 10 ^ width by omega)
      (show m / 10 < 10 ^ width by omega)
    rw [fixedDigits, fixedDigits, append_lt_append_iff (by simp), hhigh, heq,
      List.cons_lt_cons_iff, hlow]
    have hirrefl := List.not_lt_nil ([] : List Char)
    constructor
    · rintro (h | ⟨h, h' | ⟨-, h'⟩⟩)
      · omega
      · omega
      · exact absurd h' hirrefl
    · intro h
      by_cases hsame : n / 10 = m / 10
      · exact Or.inr ⟨hsame, Or.inl (by omega)⟩
      · exact Or.inl (by omega)

/-- `"%0{width}d" % n`, for a number that is not negative. -/
def zeroPadded (width n : ℕ) : List Char := (Nat.toDigits 10 n).leftpad width '0'

theorem zeroPadded_eq_fixedDigits {width n : ℕ} (hwidth : 0 < width) (hn : n < 10 ^ width) :
    zeroPadded width n = fixedDigits width n := by
  induction width generalizing n with
  | zero => exact absurd hwidth (lt_irrefl 0)
  | succ width ih =>
    rcases Nat.eq_zero_or_pos width with rfl | hpos
    · have hsmall : n < 10 := by simpa using hn
      simp [zeroPadded, fixedDigits, Nat.toDigits_of_lt_base hsmall, List.leftpad,
        Nat.mod_eq_of_lt hsmall]
    · rw [fixedDigits, ← ih hpos (by rw [Nat.pow_succ] at hn; omega)]
      by_cases hsmall : n < 10
      · have hzero : zeroPadded width 0 = List.replicate width '0' := by
          obtain ⟨width, rfl⟩ := Nat.exists_eq_succ_of_ne_zero hpos.ne'
          simp [zeroPadded, List.leftpad, List.replicate_succ']
        rw [Nat.div_eq_of_lt hsmall, Nat.mod_eq_of_lt hsmall, hzero]
        simp [zeroPadded, List.leftpad, Nat.toDigits_of_lt_base hsmall]
      · have hdigits := Nat.toDigits_of_base_le (by decide) (Nat.le_of_not_lt hsmall)
        simp only [zeroPadded, List.leftpad, hdigits, List.length_append, List.length_singleton,
          Nat.add_sub_add_right, List.append_assoc]

/-- Numbers one after the other, each of its own width and with its own separator after it. -/
def stamp : List (ℕ × List Char) → List ℕ → List Char
  | (width, sep) :: format, n :: ns => zeroPadded width n ++ (sep ++ stamp format ns)
  | _, _ => []

/-- Numbers that fit in the widths of a format. -/
def Fits : List (ℕ × List Char) → List ℕ → Prop :=
  List.Forall₂ fun field n => 0 < field.1 ∧ n < 10 ^ field.1

/-- Lines of the same format are in the order of their numbers. -/
theorem stamp_lt_iff {format : List (ℕ × List Char)} {ns ms : List ℕ} (hn : Fits format ns)
    (hm : Fits format ms) : stamp format ns < stamp format ms ↔ ns < ms := by
  induction hn generalizing ms with
  | nil =>
    cases hm
    simp [stamp]
  | @cons field n format ns hfield hrest ih =>
    obtain ⟨width, sep⟩ := field
    cases hm with
    | @cons _ m _ ms hfield' hrest' =>
      obtain ⟨hwidth, hn⟩ := hfield
      have hm := hfield'.2
      dsimp only at hwidth hn hm
      rw [stamp, stamp, zeroPadded_eq_fixedDigits hwidth hn, zeroPadded_eq_fixedDigits hwidth hm,
        append_lt_append_iff (by simp), append_lt_append_iff rfl, ih hrest',
        fixedDigits_lt_iff hn hm, fixedDigits_inj hn hm, List.cons_lt_cons_iff]
      have hsep : ¬ sep < sep := List.lt_irrefl sep
      simp only [hsep, false_or, true_and]

end Pylyskom
