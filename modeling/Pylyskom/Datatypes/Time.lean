import Pylyskom.Calendar
import Pylyskom.Protocol.Integers
import Pylyskom.Strings.Codecs
import Pylyskom.Strings.Padded
import Pylyskom.TextReads

/-!
# Times

A `Time` is made from a Unix time with `time.gmtime`, and turned into one with
`calendar.timegm`. On the way to the server and back it loses the sign of its year.
-/

namespace Pylyskom

open Calendar

/-! ## The libraries of Python -/

/-- `time.struct_time` -/
structure StructTime where
  tmYear : ℤ
  tmMon : ℤ
  tmMday : ℤ
  tmHour : ℤ
  tmMin : ℤ
  tmSec : ℤ
  tmWday : ℤ
  tmYday : ℤ
  tmIsdst : ℤ

/-- The ordinal of the first day of 1970. -/
def EPOCH_ORD : ℤ := 719163

/-- `time.gmtime`, for years that fit in an integer of C. -/
def gmtime (secs : ℤ) : StructTime :=
  let date := Date.ofOrdinal (EPOCH_ORD + secs / 86400)
  let rem := secs % 86400
  { tmYear := date.year
    tmMon := date.month
    tmMday := date.day
    tmHour := rem / 3600
    tmMin := rem % 3600 / 60
    tmSec := rem % 60
    tmWday := date.weekday
    tmYday := date.dayOfYear
    tmIsdst := 0 }

/-- `calendar.timegm`, which asks `datetime.date` for the first day of the month. The year and
the month have to be those of a date, but the other numbers can be any. -/
def timegm (year month day hour minute second : ℤ) : Except Exn ℤ :=
  if (1 ≤ year ∧ year ≤ 9999) ∧ 1 ≤ month ∧ month ≤ 12 then
    let first := daysBeforeYear year + daysBeforeMonth year month.toNat + 1
    let days := first - EPOCH_ORD + day - 1
    let hours := days * 24 + hour
    let minutes := hours * 60 + minute
    .ok (minutes * 60 + second)
  else .error (.builtinError .valueError)

/-- `b"%d" % n` -/
def decimalInt (n : ℤ) : Bytes :=
  if n < 0 then '-'.toUInt8 :: decimal n.natAbs else decimal n.natAbs

/-- `"%0{width}d" % n` -/
def zeroPaddedInt (width : ℕ) (n : ℤ) : Str :=
  if n < 0 then '-' :: zeroPadded (width - 1) n.natAbs else zeroPadded width n.natAbs

/-! ## Time -/

/-- The fields of a `Time` that the program makes, which can be any integers. -/
@[ext] structure TimeFields where
  seconds : ℤ
  minutes : ℤ
  hours : ℤ
  day : ℤ
  /-- 0 .. 11 -/
  month : ℤ
  /-- no of years since 1900 -/
  year : ℤ
  /-- 0 = Sunday ... 6 = Saturday -/
  dayOfWeek : ℤ
  /-- 0 ... 365 -/
  dayOfYear : ℤ
  isDst : ℤ
  deriving DecidableEq

/-- A `Time` that was received. -/
def Time.fields (self : Time) : TimeFields where
  seconds := self.seconds
  minutes := self.minutes
  hours := self.hours
  day := self.day
  month := self.month
  year := self.year
  dayOfWeek := self.dayOfWeek
  dayOfYear := self.dayOfYear
  isDst := self.isDst

namespace TimeFields

/-- `Time(ptime=ptime)` -/
def ofPtime (ptime : ℤ) : TimeFields :=
  let t := gmtime ptime
  { seconds := t.tmSec
    minutes := t.tmMin
    hours := t.tmHour
    day := t.tmMday
    month := t.tmMon - 1
    year := t.tmYear - 1900
    dayOfWeek := (t.tmWday + 1) % 7
    dayOfYear := t.tmYday - 1
    isDst := t.tmIsdst }

def toPythonTime (self : TimeFields) : Except Exn ℤ :=
  timegm (self.year + 1900) (self.month + 1) self.day self.hours self.minutes self.seconds

def toString (self : TimeFields) : Bytes :=
  (ascii " ").intercalate
    [decimalInt self.seconds, decimalInt self.minutes, decimalInt self.hours, decimalInt self.day,
     decimalInt self.month, decimalInt self.year, decimalInt self.dayOfWeek,
     decimalInt self.dayOfYear, decimalInt self.isDst]

/-- Example: 1994-11-05T13:15:30Z -/
def toIso8601 (self : TimeFields) : Str :=
  zeroPaddedInt 4 (self.year + 1900) ++ "-".toList ++ zeroPaddedInt 2 (self.month + 1) ++
    "-".toList ++ zeroPaddedInt 2 self.day ++ "T".toList ++ zeroPaddedInt 2 self.hours ++
    ":".toList ++ zeroPaddedInt 2 self.minutes ++ ":".toList ++ zeroPaddedInt 2 self.seconds ++
    "Z".toList

def toDateAndTime (self : TimeFields) : Str :=
  zeroPaddedInt 4 (self.year + 1900) ++ "-".toList ++ zeroPaddedInt 2 (self.month + 1) ++
    "-".toList ++ zeroPaddedInt 2 self.day ++ " ".toList ++ zeroPaddedInt 2 self.hours ++
    ":".toList ++ zeroPaddedInt 2 self.minutes ++ ":".toList ++ zeroPaddedInt 2 self.seconds

example : (ofPtime 784041330).toIso8601 = "1994-11-05T13:15:30Z".toList := by decide

/-! ## There and back -/

/-- The day of a Unix time. -/
def dateOf (ptime : ℤ) : Date := Date.ofOrdinal (EPOCH_ORD + ptime / 86400)

theorem dateOf_toOrdinal (ptime : ℤ) : (dateOf ptime).toOrdinal = EPOCH_ORD + ptime / 86400 :=
  Date.toOrdinal_ofOrdinal _

/-- The moments of some years. -/
theorem dateOf_year_mem_iff (ptime first last : ℤ) :
    (first ≤ (dateOf ptime).year ∧ (dateOf ptime).year ≤ last) ↔
      (daysBeforeYear first + 1 - EPOCH_ORD) * 86400 ≤ ptime ∧
        ptime < (daysBeforeYear (last + 1) + 1 - EPOCH_ORD) * 86400 := by
  rw [Date.year_mem_iff, dateOf_toOrdinal]
  omega

/-- The moments from a year on. -/
theorem le_dateOf_year_iff (ptime first : ℤ) :
    first ≤ (dateOf ptime).year ↔ (daysBeforeYear first + 1 - EPOCH_ORD) * 86400 ≤ ptime := by
  have hfirst := dateOf_year_mem_iff ptime first (dateOf ptime).year
  have hsame := dateOf_year_mem_iff ptime (dateOf ptime).year (dateOf ptime).year
  have hlast := (hsame.mp ⟨le_rfl, le_rfl⟩).2
  rw [and_iff_left le_rfl, and_iff_left hlast] at hfirst
  exact hfirst

/-- The Unix time of a date and a time of the day. -/
theorem timegm_date (date : Date) (hyear : 1 ≤ date.year ∧ date.year ≤ 9999)
    (hour minute second : ℤ) :
    timegm date.year date.month date.day hour minute second =
      .ok ((((date.toOrdinal - EPOCH_ORD) * 24 + hour) * 60 + minute) * 60 + second) := by
  have hmonth := date.month_mem
  have hfirst : (1 : ℤ) ≤ date.month ∧ (date.month : ℤ) ≤ 12 := by omega
  rw [timegm, if_pos ⟨hyear, hfirst⟩, Int.toNat_natCast, Date.toOrdinal, Date.dayOfYear]
  refine congrArg _ ?_
  push_cast
  omega

theorem toPythonTime_ofPtime {ptime : ℤ}
    (hyear : 1 ≤ (dateOf ptime).year ∧ (dateOf ptime).year ≤ 9999) :
    (ofPtime ptime).toPythonTime = .ok ptime := by
  have hdate := timegm_date (dateOf ptime) hyear (ptime % 86400 / 3600)
    (ptime % 86400 % 3600 / 60) (ptime % 86400 % 60)
  simp only [toPythonTime, ofPtime, gmtime, sub_add_cancel]
  refine hdate.trans (congrArg _ ?_)
  rw [dateOf_toOrdinal]
  omega

theorem ofPtime_year (ptime : ℤ) : (ofPtime ptime).year + 1900 = (dateOf ptime).year :=
  sub_add_cancel _ _

theorem year_of_toPythonTime {self : TimeFields} {ptime : ℤ} (h : self.toPythonTime = .ok ptime) :
    1 ≤ self.year + 1900 ∧ self.year + 1900 ≤ 9999 := by
  by_contra hnot
  rw [toPythonTime, timegm, if_neg fun hfirst => hnot hfirst.1] at h
  cases h

theorem toPythonTime_ofPtime_iff (ptime : ℤ) : (ofPtime ptime).toPythonTime = .ok ptime ↔
    1 ≤ (dateOf ptime).year ∧ (dateOf ptime).year ≤ 9999 := by
  refine ⟨fun h => ?_, toPythonTime_ofPtime⟩
  rw [← ofPtime_year]
  exact year_of_toPythonTime h

theorem zeroPaddedInt_natCast (width n : ℕ) : zeroPaddedInt width n = zeroPadded width n := by
  rw [zeroPaddedInt, if_neg (by omega), Int.natAbs_natCast]

/-- The numbers of the texts, when none is negative. -/
def numbers (self : TimeFields) : List ℕ :=
  [(self.year + 1900).toNat, (self.month + 1).toNat, self.day.toNat, self.hours.toNat,
   self.minutes.toNat, self.seconds.toNat]

/-- No field of the texts is negative. -/
def Printable (self : TimeFields) : Prop :=
  0 ≤ self.year + 1900 ∧ 0 ≤ self.month + 1 ∧ 0 ≤ self.day ∧ 0 ≤ self.hours ∧ 0 ≤ self.minutes ∧
    0 ≤ self.seconds

theorem Printable.texts {self : TimeFields} (h : self.Printable) :
    self.toIso8601 = stamp [(4, "-".toList), (2, "-".toList), (2, "T".toList), (2, ":".toList),
      (2, ":".toList), (2, "Z".toList)] self.numbers ∧
    self.toDateAndTime = stamp [(4, "-".toList), (2, "-".toList), (2, " ".toList),
      (2, ":".toList), (2, ":".toList), (2, [])] self.numbers := by
  obtain ⟨hyear, hmonth, hday, hhours, hminutes, hseconds⟩ := h
  have hcast : ∀ (width : ℕ) {n : ℤ}, 0 ≤ n →
      zeroPaddedInt width n = zeroPadded width n.toNat := fun width n hn => by
    rw [← zeroPaddedInt_natCast, Int.toNat_of_nonneg hn]
  rw [toIso8601, toDateAndTime, hcast 4 hyear, hcast 2 hmonth, hcast 2 hday, hcast 2 hhours,
    hcast 2 hminutes, hcast 2 hseconds]
  constructor
  · simp only [stamp, numbers, List.append_assoc, List.append_nil]
  · simp only [stamp, numbers, List.append_assoc, List.append_nil]

/-- The six numbers of a moment. -/
theorem numbers_ofPtime {ptime : ℤ} (hyear : 0 ≤ (dateOf ptime).year) :
    (ofPtime ptime).Printable ∧
      (ofPtime ptime).numbers =
        [(dateOf ptime).year.toNat, (dateOf ptime).month, (dateOf ptime).day,
         (ptime % 86400 / 3600).toNat, (ptime % 86400 % 3600 / 60).toNat,
         (ptime % 86400 % 60).toNat] := by
  have hsame := ofPtime_year ptime
  have hmonth : (ofPtime ptime).month + 1 = (dateOf ptime).month := sub_add_cancel _ _
  have hday : (ofPtime ptime).day = (dateOf ptime).day := rfl
  constructor
  · refine ⟨by omega, by omega, by omega, ?_, ?_, ?_⟩
    all_goals
      simp only [ofPtime, gmtime]
      omega
  · rw [numbers, hsame, hmonth, hday, Int.toNat_natCast, Int.toNat_natCast]
    rfl

theorem numbers_lt_iff {a b : ℤ} (ha : 0 ≤ (dateOf a).year) (hb : 0 ≤ (dateOf b).year) :
    (ofPtime a).numbers < (ofPtime b).numbers ↔ a < b := by
  have hordinals := Date.toOrdinal_lt_iff (a := dateOf a) (b := dateOf b)
  have hsame : dateOf a = dateOf b ↔ a / 86400 = b / 86400 := by
    rw [← Date.toOrdinal_injective.eq_iff, dateOf_toOrdinal, dateOf_toOrdinal]
    omega
  rw [dateOf_toOrdinal, dateOf_toOrdinal, Date.Before] at hordinals
  rw [Date.ext_iff] at hsame
  rw [(numbers_ofPtime ha).2, (numbers_ofPtime hb).2]
  simp only [List.cons_lt_cons_iff, List.not_lt_nil, and_false, or_false]
  omega

/-- The numbers of the years 0 to 9999 fit in the widths of the texts. -/
theorem numbers_fit {ptime : ℤ} (hyear : 0 ≤ (dateOf ptime).year ∧ (dateOf ptime).year ≤ 9999)
    {format : List (ℕ × Str)} (hformat : format.map Prod.fst = [4, 2, 2, 2, 2, 2]) :
    Fits format (ofPtime ptime).numbers := by
  have hmonth := (dateOf ptime).month_mem
  have hday := (dateOf ptime).day_mem.2.trans (daysInMonth_le hmonth)
  have hwidths : List.Forall₂ (fun width n => 0 < width ∧ n < 10 ^ width) (format.map Prod.fst)
      (ofPtime ptime).numbers := by
    rw [hformat, (numbers_ofPtime hyear.1).2]
    refine .cons ⟨?_, ?_⟩ <| .cons ⟨?_, ?_⟩ <| .cons ⟨?_, ?_⟩ <| .cons ⟨?_, ?_⟩ <|
      .cons ⟨?_, ?_⟩ <| .cons ⟨?_, ?_⟩ .nil
    all_goals omega
  exact List.forall₂_map_left_iff.mp hwidths

/-- **The texts are in the order of the times** in the years 0 to 9999. -/
theorem texts_lt_iff {a b : ℤ} (ha : -62167219200 ≤ a ∧ a < 253402300800)
    (hb : -62167219200 ≤ b ∧ b < 253402300800) :
    ((ofPtime a).toIso8601 < (ofPtime b).toIso8601 ↔ a < b) ∧
      ((ofPtime a).toDateAndTime < (ofPtime b).toDateAndTime ↔ a < b) := by
  have hyears : ∀ {ptime : ℤ}, -62167219200 ≤ ptime ∧ ptime < 253402300800 →
      0 ≤ (dateOf ptime).year ∧ (dateOf ptime).year ≤ 9999 := fun h => by
    rw [dateOf_year_mem_iff]
    exact h
  have ha := hyears ha
  have hb := hyears hb
  have hlt := numbers_lt_iff ha.1 hb.1
  obtain ⟨hiso, htime⟩ := (numbers_ofPtime ha.1).1.texts
  obtain ⟨hiso', htime'⟩ := (numbers_ofPtime hb.1).1.texts
  rw [hiso, hiso', htime, htime', stamp_lt_iff (numbers_fit ha rfl) (numbers_fit hb rfl),
    stamp_lt_iff (numbers_fit ha rfl) (numbers_fit hb rfl)]
  exact ⟨hlt, hlt⟩

/-- The last second of a century, and the first one of the next. -/
theorem texts_lt_century :
    (ofPtime 4102444799).toIso8601 < (ofPtime 4102444800).toIso8601 ∧
      (ofPtime 4102444799).toDateAndTime < (ofPtime 4102444800).toDateAndTime := by
  have hlt : (4102444799 : ℤ) < 4102444800 := by decide
  have h := texts_lt_iff (a := 4102444799) (b := 4102444800) (by decide) (by decide)
  exact ⟨h.1.mpr hlt, h.2.mpr hlt⟩

/-! ## To the server and back -/

theorem decimalInt_natCast (n : ℕ) : decimalInt n = decimal n := by
  rw [decimalInt, if_neg (by omega), Int.natAbs_natCast]

/-- A received `Time` is sent as it came. -/
theorem parse_toString_fields (time : Time) {d : UInt8} (hd : whitespace.contains d = true)
    (rest : Bytes) :
    Time.parse.run (time.fields.toString ++ d :: rest) = .returned time rest := by
  have htext : [decimal time.seconds, decimal time.minutes, decimal time.hours,
      decimal time.day, decimal time.month, decimal time.year, decimal time.dayOfWeek,
      decimal time.dayOfYear, decimal time.isDst] ∈ Time.text time := mem_prod_token
    [decimal time.seconds, decimal time.minutes, decimal time.hours, decimal time.day,
      decimal time.month, decimal time.year, decimal time.dayOfWeek, decimal time.dayOfYear,
      decimal time.isDst]
  obtain ⟨-, hrun⟩ := Time.reads time _ htext
  have h := hrun [] (by simp) d hd rest
  simp only [toString, Time.fields, decimalInt_natCast]
  exact h

/-- One integer is read, and then what follows it. -/
theorem run_readInt_bind {α : Type} (f : ℕ → Parser α) (n : ℕ) (rest : Bytes) :
    (readInt >>= f).run (decimal n ++ (' '.toUInt8 :: rest)) = (f n).run rest := by
  have hempty : ∀ c ∈ ([] : Bytes), whitespace.contains c = true := by simp
  have h := run_readIntAndNext hempty n (d := ' '.toUInt8) (by decide) rest
  have hread : readInt.run (decimal n ++ (' '.toUInt8 :: rest)) = .returned n rest := by
    rw [readInt, Reader.run_bind, ← List.nil_append (decimal n), h]
    rfl
  rw [Reader.run_bind, hread, Outcome.andThen_returned]

/-- The minus sign of a negative number is read as the number 0. -/
theorem run_readInt_minus {α : Type} (f : ℕ → Parser α) (rest : Bytes) :
    (readInt >>= f).run ('-'.toUInt8 :: rest) = (f 0).run rest := by
  have hminus : IntText ['-'.toUInt8] 0 '-'.toUInt8 :=
    ⟨[], [], rfl, by simp, by simp, by decide, fun _ => by decide, rfl⟩
  have hread := run_readInt_text hminus rest
  rw [List.singleton_append] at hread
  rw [Reader.run_bind, hread, Outcome.andThen_returned]

def withYear (self : TimeFields) (year : ℤ) : TimeFields := { self with year }

/-- With a negative year, the fields after it move by one, and the year is read as 1900. -/
theorem parse_toString_negative (time : Time) {year : ℤ} (hyear : year < 0) (rest : Bytes) :
    Time.parse.run ((time.fields.withYear year).toString ++ rest) = .returned
      { time with
        year := 0, dayOfWeek := year.natAbs, dayOfYear := time.dayOfWeek
        isDst := time.dayOfYear } (decimal time.isDst ++ rest) := by
  have hminus : decimalInt year = '-'.toUInt8 :: decimal year.natAbs := if_pos hyear
  have htext : (time.fields.withYear year).toString ++ rest =
        decimal time.seconds ++ (' '.toUInt8 :: (decimal time.minutes ++ (' '.toUInt8 ::
        (decimal time.hours ++ (' '.toUInt8 :: (decimal time.day ++ (' '.toUInt8 :: (decimal
        time.month ++ (' '.toUInt8 :: ('-'.toUInt8 :: (decimal year.natAbs ++ (' '.toUInt8 ::
        (decimal time.dayOfWeek ++ (' '.toUInt8 :: (decimal time.dayOfYear ++ (' '.toUInt8 ::
        (decimal time.isDst ++ rest))))))))))))))))) := by
    simp only [toString, withYear, Time.fields, decimalInt_natCast, hminus]
    simp [List.intercalate, ascii]
  rw [htext]
  simp only [Time.parse, Int32.parse, Bool.parse, Int.parse, run_readInt_bind, run_readInt_minus]
  rfl

/-- The fields of a moment that are sent as they are, in a `Time`. -/
def received (self : TimeFields) : Time where
  seconds := self.seconds.toNat
  minutes := self.minutes.toNat
  hours := self.hours.toNat
  day := self.day.toNat
  month := self.month.toNat
  year := self.year.toNat
  dayOfWeek := self.dayOfWeek.toNat
  dayOfYear := self.dayOfYear.toNat
  isDst := self.isDst.toNat

/-- Only the year can be negative. -/
theorem ofPtime_eq_withYear (ptime : ℤ) :
    ofPtime ptime = (ofPtime ptime).received.fields.withYear (ofPtime ptime).year := by
  have hmonth := (dateOf ptime).month_mem
  have hyday := (dateOf ptime).dayOfYear_mem.1
  have hmonth' : (ofPtime ptime).month = (dateOf ptime).month - 1 := rfl
  have hyday' : (ofPtime ptime).dayOfYear = (dateOf ptime).dayOfYear - 1 := rfl
  have hday : 0 ≤ (ofPtime ptime).day := Int.natCast_nonneg (dateOf ptime).day
  have hcast : ∀ {n : ℤ}, 0 ≤ n → n = (n.toNat : ℤ) := fun h => (Int.toNat_of_nonneg h).symm
  have hseconds : 0 ≤ (ofPtime ptime).seconds := Int.emod_nonneg _ (by decide)
  have hminutes : 0 ≤ (ofPtime ptime).minutes := by
    simp only [ofPtime, gmtime]
    omega
  have hhours : 0 ≤ (ofPtime ptime).hours := by
    simp only [ofPtime, gmtime]
    omega
  have hweek : 0 ≤ (ofPtime ptime).dayOfWeek := Int.emod_nonneg _ (by decide)
  exact TimeFields.ext (hcast hseconds) (hcast hminutes) (hcast hhours) (hcast hday)
    (hcast (by omega)) rfl (hcast hweek) (hcast (by omega)) rfl

/-- What the server reads of a moment. -/
theorem parse_toString_ofPtime (ptime : ℤ) {d : UInt8} (hd : whitespace.contains d = true)
    (rest : Bytes) :
    ∃ time rest', Time.parse.run ((ofPtime ptime).toString ++ d :: rest) = .returned time rest' ∧
      if 0 ≤ (ofPtime ptime).year then time.fields = ofPtime ptime ∧ rest' = rest
      else time.year = 0 ∧ 1 ≤ time.day := by
  by_cases hyear : 0 ≤ (ofPtime ptime).year
  · have hfields : (ofPtime ptime).received.fields = ofPtime ptime := by
      conv_rhs => rw [ofPtime_eq_withYear ptime]
      exact TimeFields.ext rfl rfl rfl rfl rfl (Int.toNat_of_nonneg hyear) rfl rfl rfl
    have hrun := parse_toString_fields (ofPtime ptime).received hd rest
    rw [hfields] at hrun
    refine ⟨_, _, hrun, ?_⟩
    rw [if_pos hyear]
    exact ⟨hfields, rfl⟩
  · have hrun := parse_toString_negative (ofPtime ptime).received
      (Int.lt_of_not_ge hyear) (d :: rest)
    rw [← ofPtime_eq_withYear] at hrun
    refine ⟨_, _, hrun, ?_⟩
    rw [if_neg hyear]
    refine ⟨rfl, ?_⟩
    have hday := (dateOf ptime).day_mem.1
    have hsame : (ofPtime ptime).day = (dateOf ptime).day := rfl
    dsimp only [received]
    omega

/-- The Unix time of a year from 1900 on. -/
theorem le_of_toPythonTime {time : Time} {ptime : ℤ} (hday : 1 ≤ time.day)
    (h : time.fields.toPythonTime = .ok ptime) : -2208988800 ≤ ptime := by
  have hyear : daysBeforeYear 1900 ≤ daysBeforeYear (time.year + 1900) :=
    daysBeforeYear_strictMono.monotone (by omega)
  have hfirst : daysBeforeYear 1900 = 693595 := by decide
  rw [toPythonTime, timegm] at h
  split at h
  · have heq := Except.ok.inj h
    simp only [Time.fields, EPOCH_ORD] at heq
    omega
  · cases h

/-- From 1900 on, the other side reads all fields. -/
theorem read_fields_iff (ptime : ℤ) {d : UInt8} (hd : whitespace.contains d = true)
    (rest : Bytes) :
    (∃ time, Time.parse.run ((ofPtime ptime).toString ++ d :: rest) = .returned time rest ∧
      time.fields = ofPtime ptime) ↔ -2208988800 ≤ ptime := by
  have hyears : 1900 ≤ (dateOf ptime).year ↔ -2208988800 ≤ ptime := by
    rw [le_dateOf_year_iff]
    rfl
  have hsame := ofPtime_year ptime
  obtain ⟨time, rest', hrun, hread⟩ := parse_toString_ofPtime ptime hd rest
  rw [← hyears]
  simp only [hrun, Outcome.returned.injEq]
  constructor
  · rintro ⟨_, ⟨rfl, -⟩, hfields⟩
    have hyear : 0 ≤ time.fields.year := Int.natCast_nonneg time.year
    rw [hfields] at hyear
    omega
  · intro hyear
    rw [if_pos (by omega)] at hread
    exact ⟨time, ⟨rfl, hread.2⟩, hread.1⟩

/-- The other side gets the same Unix time from the year 1900 to the year 9999. -/
theorem read_toPythonTime_iff (ptime : ℤ) {d : UInt8} (hd : whitespace.contains d = true)
    (rest : Bytes) :
    (∃ time rest', Time.parse.run ((ofPtime ptime).toString ++ d :: rest) = .returned time rest' ∧
      time.fields.toPythonTime = .ok ptime) ↔
      -2208988800 ≤ ptime ∧ ptime < 253402300800 := by
  have hyears : 1900 ≤ (dateOf ptime).year ∧ (dateOf ptime).year ≤ 9999 ↔
      -2208988800 ≤ ptime ∧ ptime < 253402300800 := by
    rw [dateOf_year_mem_iff]
    rfl
  have hsame := ofPtime_year ptime
  have hnext := toPythonTime_ofPtime_iff ptime
  obtain ⟨time, rest', hrun, hread⟩ := parse_toString_ofPtime ptime hd rest
  simp only [hrun, Outcome.returned.injEq]
  constructor
  · rintro ⟨_, _, ⟨rfl, rfl⟩, hok⟩
    by_cases hyear : 0 ≤ (ofPtime ptime).year
    · rw [if_pos hyear] at hread
      rw [hread.1, hnext] at hok
      exact hyears.mp ⟨by omega, hok.2⟩
    · -- What was read is a time after 1900.
      rw [if_neg hyear] at hread
      have hle := le_of_toPythonTime hread.2 hok
      have hbefore : ¬ 1900 ≤ (dateOf ptime).year := by omega
      rw [le_dateOf_year_iff] at hbefore
      exact absurd hle hbefore
  · intro h
    obtain ⟨hyear, hlast⟩ := hyears.mpr h
    rw [if_pos (by omega)] at hread
    exact ⟨time, rest', ⟨rfl, rfl⟩, by rw [hread.1, hnext]; exact ⟨by omega, hlast⟩⟩

/-- **A time is read back** by the other side, in all its fields, exactly if its year is not
before 1900; and it is turned into the same Unix time exactly if its year is not after 9999
either. -/
theorem read_toString_iff (ptime : ℤ) {d : UInt8} (hd : whitespace.contains d = true)
    (rest : Bytes) :
    ((∃ time, Time.parse.run ((ofPtime ptime).toString ++ d :: rest) = .returned time rest ∧
      time.fields = ofPtime ptime) ↔ -2208988800 ≤ ptime) ∧
    ((∃ time rest', Time.parse.run ((ofPtime ptime).toString ++ d :: rest) = .returned time rest' ∧
      time.fields.toPythonTime = .ok ptime) ↔
      -2208988800 ≤ ptime ∧ ptime < 253402300800) :=
  ⟨read_fields_iff ptime hd rest, read_toPythonTime_iff ptime hd rest⟩

/-- The first second of the year 10000 is read back, but it is not turned into a Unix time. -/
theorem read_toString_iff_10000 :
    (∃ time, Time.parse.run ((ofPtime 253402300800).toString ++ [' '.toUInt8]) =
      .returned time [] ∧ time.fields = ofPtime 253402300800) ∧
    ¬ ∃ time rest', Time.parse.run ((ofPtime 253402300800).toString ++ [' '.toUInt8]) =
      .returned time rest' ∧ time.fields.toPythonTime = .ok 253402300800 := by
  obtain ⟨hfields, hptime⟩ := read_toString_iff 253402300800 (d := ' '.toUInt8) (by decide) []
  exact ⟨hfields.mpr (by decide), fun h => absurd (hptime.mp h).2 (by decide)⟩

end TimeFields
end Pylyskom
