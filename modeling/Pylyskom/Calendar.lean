import Mathlib.Algebra.Order.Ring.Int
import Mathlib.Data.Int.ConditionallyCompleteOrder
import Mathlib.Data.Int.SuccPred
import Mathlib.Data.List.GetD
import Mathlib.Order.SuccPred.Archimedean
import Mathlib.Order.Monotone.Basic
import Mathlib.Tactic.IntervalCases

/-!
# The Gregorian calendar

The dates of the proleptic Gregorian calendar and their ordinals, where January 1 of year 1
has the ordinal 1. A day lies in exactly one year, and in exactly one month of this year.
-/

namespace Pylyskom.Calendar

/-! ## Years -/

def IsLeap (year : ℤ) : Prop := year % 4 = 0 ∧ (year % 100 ≠ 0 ∨ year % 400 = 0)

instance (year : ℤ) : Decidable (IsLeap year) := inferInstanceAs (Decidable (_ ∧ _))

def daysInYear (year : ℤ) : ℕ := if IsLeap year then 366 else 365

/-- The number of days before January 1 of a year. -/
def daysBeforeYear (year : ℤ) : ℤ :=
  (year - 1) * 365 + (year - 1) / 4 - (year - 1) / 100 + (year - 1) / 400

theorem daysBeforeYear_succ (year : ℤ) :
    daysBeforeYear (year + 1) = daysBeforeYear year + daysInYear year := by
  unfold daysBeforeYear
  by_cases hleap : IsLeap year
  · rw [daysInYear, if_pos hleap]
    unfold IsLeap at hleap
    omega
  · rw [daysInYear, if_neg hleap]
    unfold IsLeap at hleap
    omega

theorem daysInYear_pos (year : ℤ) : 0 < daysInYear year := by
  unfold daysInYear
  split <;> omega

theorem daysBeforeYear_strictMono : StrictMono daysBeforeYear := by
  refine strictMono_int_of_lt_succ fun year => ?_
  have hpos := daysInYear_pos year
  rw [daysBeforeYear_succ]
  omega

/-- The year of a day, from the number of whole cycles of 400, 100, 4 years and 1 year
before it. The last day of a cycle can belong to one year more than fits in it. -/
def yearOf (ordinal : ℤ) : ℤ :=
  let n := ordinal - 1
  let n100 := min 3 (n % 146097 / 36524)
  let n4 := (n % 146097 - 36524 * n100) / 1461
  let n1 := min 3 ((n % 146097 - 36524 * n100) % 1461 / 365)
  400 * (n / 146097) + 100 * n100 + 4 * n4 + n1 + 1

/-- A year that is so many whole cycles of years after year 1. -/
theorem daysBeforeYear_cycles {n400 n100 n4 n1 : ℤ} (h100 : 0 ≤ n100 ∧ n100 ≤ 3)
    (h4 : 0 ≤ n4 ∧ n4 ≤ 24) (h1 : 0 ≤ n1 ∧ n1 ≤ 3) :
    daysBeforeYear (400 * n400 + 100 * n100 + 4 * n4 + n1 + 1) =
      146097 * n400 + 36524 * n100 + 1461 * n4 + 365 * n1 := by
  unfold daysBeforeYear
  omega

theorem isLeap_cycles {n400 n100 n4 n1 : ℤ} (h100 : 0 ≤ n100 ∧ n100 ≤ 3)
    (h4 : 0 ≤ n4 ∧ n4 ≤ 24) (h1 : 0 ≤ n1 ∧ n1 ≤ 3) :
    IsLeap (400 * n400 + 100 * n100 + 4 * n4 + n1 + 1) ↔ n1 = 3 ∧ (n4 = 24 → n100 = 3) := by
  unfold IsLeap
  constructor
  · rintro ⟨hfour, hcentury⟩
    exact ⟨by omega, fun h => by omega⟩
  · rintro ⟨h, hcentury⟩
    exact ⟨by omega, by omega⟩

theorem mem_yearOf (ordinal : ℤ) :
    daysBeforeYear (yearOf ordinal) < ordinal ∧
      ordinal ≤ daysBeforeYear (yearOf ordinal) + daysInYear (yearOf ordinal) := by
  obtain ⟨n, hn⟩ : ∃ n, n = ordinal - 1 := ⟨_, rfl⟩
  obtain ⟨n100, hn100⟩ : ∃ n100, n100 = min 3 (n % 146097 / 36524) := ⟨_, rfl⟩
  obtain ⟨r, hr⟩ : ∃ r, r = n % 146097 - 36524 * n100 := ⟨_, rfl⟩
  obtain ⟨n4, hn4⟩ : ∃ n4, n4 = r / 1461 := ⟨_, rfl⟩
  obtain ⟨n1, hn1⟩ : ∃ n1, n1 = min 3 (r % 1461 / 365) := ⟨_, rfl⟩
  have hyear : yearOf ordinal = 400 * (n / 146097) + 100 * n100 + 4 * n4 + n1 + 1 := by
    subst hn1 hn4 hr hn100 hn
    rfl
  have h100 : 0 ≤ n100 ∧ n100 ≤ 3 := by omega
  have hcentury : 0 ≤ r ∧ r ≤ 36524 ∧ (n100 ≠ 3 → r < 36524) := by omega
  have h4 : 0 ≤ n4 ∧ n4 ≤ 24 := by omega
  have h1 : 0 ≤ n1 ∧ n1 ≤ 3 := by omega
  have hleap := @isLeap_cycles (n / 146097) n100 n4 n1 h100 h4 h1
  rw [hyear, daysBeforeYear_cycles h100 h4 h1, daysInYear]
  refine ⟨by omega, ?_⟩
  have hday : r - 1461 * n4 - 365 * n1 < if n1 = 3 ∧ (n4 = 24 → n100 = 3) then 366 else 365 := by
    split_ifs with h
    · omega
    · have hshort : n1 = 3 → n4 = 24 ∧ n100 ≠ 3 := fun h3 => by
        simpa [h3] using h
      omega
  simp only [hleap]
  split_ifs at hday ⊢ <;> push_cast <;> omega

/-! ## Months -/

/-- The days before each month of a year that is not a leap year, and after the last. -/
def commonDaysBeforeMonth : List ℕ :=
  [0, 31, 59, 90, 120, 151, 181, 212, 243, 273, 304, 334, 365]

/-- The number of days of a year before one of its months, which begin with month 1. -/
def daysBeforeMonth (year : ℤ) (month : ℕ) : ℕ :=
  commonDaysBeforeMonth.getD (month - 1) 365 + if 2 < month ∧ IsLeap year then 1 else 0

def daysInMonth (year : ℤ) (month : ℕ) : ℕ :=
  daysBeforeMonth year (month + 1) - daysBeforeMonth year month

example : (List.range' 1 12).map (daysInMonth 2024) =
    [31, 29, 31, 30, 31, 30, 31, 31, 30, 31, 30, 31] := by decide

theorem daysInMonth_le {year : ℤ} {month : ℕ} (hmonth : 1 ≤ month ∧ month ≤ 12) :
    daysInMonth year month ≤ 31 := by
  obtain ⟨hone, htwelve⟩ := hmonth
  unfold daysInMonth daysBeforeMonth commonDaysBeforeMonth
  by_cases hleap : IsLeap year
  · interval_cases month <;> simp [hleap]
  · interval_cases month <;> simp [hleap]

theorem daysBeforeMonth_one (year : ℤ) : daysBeforeMonth year 1 = 0 := rfl

theorem daysBeforeMonth_last (year : ℤ) : daysBeforeMonth year 13 = daysInYear year := by
  unfold daysBeforeMonth daysInYear
  split <;> simp_all [commonDaysBeforeMonth]

theorem daysBeforeMonth_mono (year : ℤ) : Monotone (daysBeforeMonth year) := by
  refine monotone_nat_of_le_succ fun month => ?_
  have htable : commonDaysBeforeMonth.getD (month - 1) 365 ≤
      commonDaysBeforeMonth.getD (month + 1 - 1) 365 := by
    by_cases hlast : month < 13
    · interval_cases month <;> decide
    · have hlen : commonDaysBeforeMonth.length = 13 := rfl
      have hafter : commonDaysBeforeMonth.getD (month + 1 - 1) 365 = 365 :=
        List.getD_eq_default _ _ (by omega)
      rw [hafter]
      by_cases hmonth : month = 13
      · subst hmonth
        decide
      · exact (List.getD_eq_default _ _ (by omega)).le
  have hleap : (if 2 < month ∧ IsLeap year then 1 else 0) ≤
      if 2 < month + 1 ∧ IsLeap year then 1 else 0 := by
    split_ifs with h h'
    · exact le_rfl
    · exact absurd ⟨by omega, h.2⟩ h'
    · exact Nat.zero_le 1
    · exact le_rfl
  exact Nat.add_le_add htable hleap

/-- The last month, up to the given one, that begins before a day of the year. -/
def lastMonth (year : ℤ) (dayOfYear : ℕ) : (month : ℕ) → ℕ
  | 0 => 0
  | month + 1 =>
    if daysBeforeMonth year (month + 1) < dayOfYear then month + 1
    else lastMonth year dayOfYear month

theorem lastMonth_mem {year : ℤ} {dayOfYear month : ℕ} (hpos : 0 < dayOfYear)
    (hmonth : 0 < month) (hle : dayOfYear ≤ daysBeforeMonth year (month + 1)) :
    1 ≤ lastMonth year dayOfYear month ∧ lastMonth year dayOfYear month ≤ month ∧
      daysBeforeMonth year (lastMonth year dayOfYear month) < dayOfYear ∧
      dayOfYear ≤ daysBeforeMonth year (lastMonth year dayOfYear month + 1) := by
  induction month with
  | zero => exact absurd hmonth (lt_irrefl 0)
  | succ month ih =>
    unfold lastMonth
    by_cases hbegins : daysBeforeMonth year (month + 1) < dayOfYear
    · rw [if_pos hbegins]
      exact ⟨by omega, le_rfl, hbegins, hle⟩
    · rw [if_neg hbegins]
      have hnonzero : 0 < month := by
        rcases Nat.eq_zero_or_pos month with rfl | h
        · exact absurd hpos (by simpa [daysBeforeMonth_one] using hbegins)
        · exact h
      obtain ⟨hone, hlast, hbefore, hafter⟩ := ih hnonzero (by omega)
      exact ⟨hone, by omega, hbefore, hafter⟩

/-- The days up to one day of its year. -/
def dayOfYearOf (ordinal : ℤ) : ℕ := (ordinal - daysBeforeYear (yearOf ordinal)).toNat

def monthOf (ordinal : ℤ) : ℕ := lastMonth (yearOf ordinal) (dayOfYearOf ordinal) 12

theorem daysBeforeYear_add_dayOfYearOf (ordinal : ℤ) :
    daysBeforeYear (yearOf ordinal) + dayOfYearOf ordinal = ordinal := by
  have hyear := mem_yearOf ordinal
  unfold dayOfYearOf
  omega

theorem monthOf_mem (ordinal : ℤ) :
    (1 ≤ monthOf ordinal ∧ monthOf ordinal ≤ 12) ∧
      daysBeforeMonth (yearOf ordinal) (monthOf ordinal) < dayOfYearOf ordinal ∧
      dayOfYearOf ordinal ≤ daysBeforeMonth (yearOf ordinal) (monthOf ordinal + 1) := by
  have hyear := mem_yearOf ordinal
  have hordinal := daysBeforeYear_add_dayOfYearOf ordinal
  have hlast : dayOfYearOf ordinal ≤ daysBeforeMonth (yearOf ordinal) (12 + 1) := by
    rw [daysBeforeMonth_last]
    omega
  obtain ⟨hone, htwelve, hday⟩ := lastMonth_mem (by omega) (by decide) hlast
  exact ⟨⟨hone, htwelve⟩, hday⟩

/-! ## Dates -/

@[ext] structure Date where
  year : ℤ
  month : ℕ
  day : ℕ
  month_mem : 1 ≤ month ∧ month ≤ 12
  day_mem : 1 ≤ day ∧ day ≤ daysInMonth year month
  deriving DecidableEq

namespace Date

/-- The days of the year up to the date, which is 1 on January 1. -/
def dayOfYear (self : Date) : ℕ := daysBeforeMonth self.year self.month + self.day

def toOrdinal (self : Date) : ℤ := daysBeforeYear self.year + self.dayOfYear

/-- The day of the week, from Monday, which is 0. -/
def weekday (self : Date) : ℤ := (self.toOrdinal + 6) % 7

theorem dayOfYear_le (self : Date) :
    self.dayOfYear ≤ daysBeforeMonth self.year (self.month + 1) := by
  have hday := self.day_mem.2
  have hmono := daysBeforeMonth_mono self.year (Nat.le_add_right self.month 1)
  unfold daysInMonth at hday
  unfold dayOfYear
  omega

theorem dayOfYear_mem (self : Date) :
    1 ≤ self.dayOfYear ∧ self.dayOfYear ≤ daysInYear self.year := by
  constructor
  · exact self.day_mem.1.trans (Nat.le_add_left _ _)
  · rw [← daysBeforeMonth_last]
    refine self.dayOfYear_le.trans (daysBeforeMonth_mono self.year ?_)
    exact Nat.succ_le_succ self.month_mem.2

/-- The date of an ordinal. -/
def ofOrdinal (ordinal : ℤ) : Date where
  year := yearOf ordinal
  month := monthOf ordinal
  day := dayOfYearOf ordinal - daysBeforeMonth (yearOf ordinal) (monthOf ordinal)
  month_mem := (monthOf_mem ordinal).1
  day_mem := by
    obtain ⟨-, hbefore, hafter⟩ := monthOf_mem ordinal
    unfold daysInMonth
    omega

theorem toOrdinal_ofOrdinal (ordinal : ℤ) : (ofOrdinal ordinal).toOrdinal = ordinal := by
  obtain ⟨-, hbefore, -⟩ := monthOf_mem ordinal
  have hordinal := daysBeforeYear_add_dayOfYearOf ordinal
  simp only [toOrdinal, dayOfYear, ofOrdinal]
  omega

/-- Dates come in the order of their years, months and days. -/
def Before (a b : Date) : Prop :=
  a.year < b.year ∨ a.year = b.year ∧
    (a.month < b.month ∨ a.month = b.month ∧ a.day < b.day)

theorem toOrdinal_lt_of_before {a b : Date} (h : a.Before b) : a.toOrdinal < b.toOrdinal := by
  rcases h with hyear | ⟨hyear, hmonth | ⟨hmonth, hday⟩⟩
  · have hmono := daysBeforeYear_strictMono.monotone (Int.add_one_le_of_lt hyear)
    rw [daysBeforeYear_succ] at hmono
    have ha := a.dayOfYear_mem
    have hb := b.dayOfYear_mem
    unfold toOrdinal
    omega
  · have hmono := daysBeforeMonth_mono a.year (Nat.succ_le_of_lt hmonth)
    have ha := a.dayOfYear_le.trans hmono
    have hb : b.dayOfYear = daysBeforeMonth a.year b.month + b.day := by rw [dayOfYear, hyear]
    have hday := b.day_mem.1
    unfold toOrdinal
    rw [hyear]
    omega
  · unfold toOrdinal dayOfYear
    rw [hyear, hmonth]
    omega

theorem before_trichotomy (a b : Date) : a.Before b ∨ a = b ∨ b.Before a := by
  rcases lt_trichotomy a.year b.year with hyear | hyear | hyear
  · exact Or.inl (Or.inl hyear)
  · rcases lt_trichotomy a.month b.month with hmonth | hmonth | hmonth
    · exact Or.inl (Or.inr ⟨hyear, Or.inl hmonth⟩)
    · rcases lt_trichotomy a.day b.day with hday | hday | hday
      · exact Or.inl (Or.inr ⟨hyear, Or.inr ⟨hmonth, hday⟩⟩)
      · exact Or.inr (Or.inl (Date.ext hyear hmonth hday))
      · exact Or.inr (Or.inr (Or.inr ⟨hyear.symm, Or.inr ⟨hmonth.symm, hday⟩⟩))
    · exact Or.inr (Or.inr (Or.inr ⟨hyear.symm, Or.inl hmonth⟩))
  · exact Or.inr (Or.inr (Or.inl hyear))

theorem toOrdinal_lt_iff {a b : Date} : a.toOrdinal < b.toOrdinal ↔ a.Before b := by
  refine ⟨fun h => ?_, toOrdinal_lt_of_before⟩
  rcases before_trichotomy a b with hbefore | rfl | hafter
  · exact hbefore
  · exact absurd h (lt_irrefl _)
  · exact absurd h (lt_asymm (toOrdinal_lt_of_before hafter))

theorem toOrdinal_injective : Function.Injective toOrdinal := by
  intro a b h
  rcases before_trichotomy a b with hbefore | heq | hafter
  · exact absurd h (toOrdinal_lt_of_before hbefore).ne
  · exact heq
  · exact absurd h (toOrdinal_lt_of_before hafter).ne'

/-- The years from `first` to `last` are the ordinals of their days. -/
theorem year_mem_iff (self : Date) (first last : ℤ) :
    (first ≤ self.year ∧ self.year ≤ last) ↔
      (daysBeforeYear first < self.toOrdinal ∧ self.toOrdinal ≤ daysBeforeYear (last + 1)) := by
  have hmem := self.dayOfYear_mem
  have hsucc := daysBeforeYear_succ self.year
  have hfirst := daysBeforeYear_strictMono.lt_iff_lt (a := self.year + 1) (b := first + 1)
  have hlast := daysBeforeYear_strictMono.le_iff_le (a := last + 1) (b := self.year)
  have hfirst' := daysBeforeYear_strictMono.le_iff_le (a := self.year + 1) (b := first)
  unfold toOrdinal
  constructor
  · rintro ⟨h, h'⟩
    have hle := daysBeforeYear_strictMono.le_iff_le.mpr h
    have hle' := daysBeforeYear_strictMono.le_iff_le.mpr (Int.add_le_add_right h' 1)
    omega
  · intro h
    omega

end Date
end Pylyskom.Calendar
