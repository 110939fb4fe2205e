import Hohnor.CheckedInt
import Hohnor.GregorianCalendar

/-!
# Dates

`Date` of include/hohnor/time/Date.h and src/time/Date.cpp, which keeps the
Julian day number of a date.  The two conversions are computed with ints: the
result none is an overflow somewhere in the formula.

From 1 March of the year -4800 on the conversions are the order isomorphism
between the dates of the calendar and their day numbers, shifted, as far as
the formulas do not overflow.
-/

namespace Hohnor

open CheckedInt GregorianCalendar

/-- C's `int`. -/
abbrev CInt := BitVec 32

/-- An expression of ints. -/
abbrev CIntExpr := IntExpr 32

namespace Date

structure YearMonthDay where
  year : CInt
  month : CInt
  day : CInt
deriving DecidableEq, Repr

end Date

namespace Julian

def getJulianDayNumber (year month day : CInt) : Option CInt := do
  let a ← ((14 - month) / 12 : CIntExpr).value
  let y ← (year + 4800 - a : CIntExpr).value
  let m ← (month + 12 * a - 3 : CIntExpr).value
  (day + (153 * m + 2) / 5 + y * 365 + y / 4 - y / 100 + y / 400 - 32045 :
    CIntExpr).value

def getYearMonthDay (julianDayNumber : CInt) : Option Date.YearMonthDay := do
  let a ← (julianDayNumber + 32044 : CIntExpr).value
  let b ← ((4 * a + 3) / 146097 : CIntExpr).value
  let c ← (a - (b * 146097) / 4 : CIntExpr).value
  let d ← ((4 * c + 3) / 1461 : CIntExpr).value
  let e ← (c - (1461 * d) / 4 : CIntExpr).value
  let m ← ((5 * e + 2) / 153 : CIntExpr).value
  let day ← (e - ((153 * m + 2) / 5) + 1 : CIntExpr).value
  let month ← (m + 3 - 12 * (m / 10) : CIntExpr).value
  let year ← (b * 100 + d - 4800 + (m / 10) : CIntExpr).value
  return { year, month, day }

end Julian

open Julian

structure Date where
  julianDayNumber_ : CInt
deriving DecidableEq, Repr

namespace Date

/-- `Date(year, month, day)`. -/
def ofYearMonthDay (year month day : CInt) : Option Date :=
  (getJulianDayNumber year month day).map Date.mk

def julianDayNumber (d : Date) : CInt :=
  d.julianDayNumber_

def valid (d : Date) : Bool :=
  (0 : CInt).slt d.julianDayNumber_

def yearMonthDay (d : Date) : Option YearMonthDay :=
  getYearMonthDay d.julianDayNumber_

def year (d : Date) : Option CInt :=
  d.yearMonthDay.map YearMonthDay.year

def month (d : Date) : Option CInt :=
  d.yearMonthDay.map YearMonthDay.month

def day (d : Date) : Option CInt :=
  d.yearMonthDay.map YearMonthDay.day

/-- `operator<`. -/
def less (x y : Date) : Bool :=
  x.julianDayNumber.slt y.julianDayNumber

example :
    getJulianDayNumber 1970 1 1 = some 2440588 := by
  decide +kernel

/-- The fields are those of a date of the calendar. -/
def YearMonthDay.Shows (ymd : YearMonthDay) (date : CivilDate) : Prop :=
  ymd.year.toInt = date.year ∧
    ymd.month.toInt = date.month ∧
    ymd.day.toInt = date.day

end Date

namespace Julian

open IntExpr

@[simp] theorem inRange_int
    (n : Int) :
    InRange 32 n ↔ -2147483648 ≤ n ∧ n < 2147483648 :=
  Iff.rfl

theorem getYearMonthDay_none
    {j : CInt} (hj : 536838867 < j.toInt) :
    getYearMonthDay j = none := by
  rw [Option.eq_none_iff_forall_ne_some]
  intro ymd hymd
  simp only [getYearMonthDay, Option.bind_eq_bind, Option.bind_eq_some_iff,
    value_eq_some_iff] at hymd
  obtain ⟨a, ha, b, hb, -⟩ := hymd
  simp at ha hb
  omega

section Variables

variable {a b c d e m : CInt} {n : Int}

theorem centuries_hasValue
    (ha : a.toInt = n + 1753164) (hlow : 0 ≤ a.toInt)
    (hhigh : a.toInt ≤ 536870911) :
    ((4 * a + 3) / 146097 : CIntExpr).HasValue (centuryOf n + 48) := by
  simp [ha]
  rw [Int.tdiv_eq_ediv_of_nonneg (by omega), centuryOf, lastStep]
  omega

theorem dayOfCentury_hasValue
    (ha : a.toInt = n + 1753164) (hb : b.toInt = centuryOf n + 48)
    (hlow : 0 ≤ a.toInt) (hhigh : a.toInt ≤ 536870911) :
    (a - (b * 146097) / 4 : CIntExpr).HasValue (dayOfCentury n) := by
  have hcentury := centuryOf_spec n
  rw [step, step] at hcentury
  simp [ha, hb]
  rw [Int.tdiv_eq_ediv_of_nonneg (by omega), dayOfCentury, step]
  omega

theorem yearOfCentury_hasValue
    (hc : c.toInt = dayOfCentury n) :
    ((4 * c + 3) / 1461 : CIntExpr).HasValue (yearOfCentury n) := by
  have hday := dayOfCentury_bounds n
  simp [hc]
  rw [Int.tdiv_eq_ediv_of_nonneg (by omega), yearOfCentury, lastStep]
  omega

theorem dayOfYear_hasValue
    (hc : c.toInt = dayOfCentury n) (hd : d.toInt = yearOfCentury n) :
    (c - (1461 * d) / 4 : CIntExpr).HasValue (dayOfYearOf n) := by
  have hday := dayOfCentury_bounds n
  have hyear := yearOfCentury_bounds n
  simp [hc, hd]
  rw [Int.tdiv_eq_ediv_of_nonneg (by omega), dayOfYearOf, step]
  omega

theorem month_hasValue
    (he : e.toInt = dayOfYearOf n) :
    ((5 * e + 2) / 153 : CIntExpr).HasValue (monthOf n) := by
  have hlow := (dayOfYearOf_bounds n).1
  have hhigh := dayOfYearOf_lt n
  simp [he]
  rw [Int.tdiv_eq_ediv_of_nonneg (by omega), monthOf, lastStep]
  omega

theorem day_hasValue
    (he : e.toInt = dayOfYearOf n) (hm : m.toInt = monthOf n) :
    (e - ((153 * m + 2) / 5) + 1 : CIntExpr).HasValue
      (ofDayNumber n).day := by
  have hhigh := dayOfYearOf_lt n
  have hmonth := monthOf_bounds n
  have hstart := (monthOf_spec n).1
  rw [monthStart, step] at hstart
  simp [he, hm]
  rw [Int.tdiv_eq_ediv_of_nonneg (by omega), monthStart, step]
  omega

theorem civilMonth_hasValue
    (hm : m.toInt = monthOf n) :
    (m + 3 - 12 * (m / 10) : CIntExpr).HasValue (ofDayNumber n).month := by
  have hmonth := monthOf_bounds n
  simp [hm]
  rw [Int.tdiv_eq_ediv_of_nonneg (by omega)]
  omega

theorem civilYear_hasValue
    (hb : b.toInt = centuryOf n + 48) (hd : d.toInt = yearOfCentury n)
    (hm : m.toInt = monthOf n) (hlow : -1753164 ≤ n) (hhigh : n ≤ 535117747) :
    (b * 100 + d - 4800 + (m / 10) : CIntExpr).HasValue
      (ofDayNumber n).year := by
  have hcentury := centuryOf_spec n
  have hyear := yearOfCentury_bounds n
  have hmonth := monthOf_bounds n
  rw [step, step] at hcentury
  simp [hb, hd, hm]
  rw [Int.tdiv_eq_ediv_of_nonneg (by omega), yearOf]
  omega

end Variables

/-- The conversion finds the century, the year, the month and the day one after
the other, with the centuries counted from -4800 on. -/
theorem getYearMonthDay_some
    {j : CInt} {n : Int} (hj : j.toInt = n + 1721120)
    (hlow : -32044 ≤ j.toInt) (hhigh : j.toInt ≤ 536838867) :
    ∃ ymd, getYearMonthDay j = some ymd ∧ ymd.Shows (ofDayNumber n) := by
  obtain ⟨a, hav, ha⟩ :
      (j + 32044 : CIntExpr).HasValue (n + 1753164) := by
    simp
    omega
  have halow : 0 ≤ a.toInt := by
    omega
  have hahigh : a.toInt ≤ 536870911 := by
    omega
  obtain ⟨b, hbv, hb⟩ := centuries_hasValue ha halow hahigh
  obtain ⟨c, hcv, hc⟩ := dayOfCentury_hasValue ha hb halow hahigh
  obtain ⟨d, hdv, hd⟩ := yearOfCentury_hasValue hc
  obtain ⟨e, hev, he⟩ := dayOfYear_hasValue hc hd
  obtain ⟨m, hmv, hm⟩ := month_hasValue he
  obtain ⟨day, hday, hday'⟩ := day_hasValue he hm
  obtain ⟨month, hmonth, hmonth'⟩ := civilMonth_hasValue hm
  obtain ⟨year, hyear, hyear'⟩ :=
    civilYear_hasValue hb hd hm (by omega) (by omega)
  refine ⟨⟨year, month, day⟩, ?_, hyear', hmonth', hday'⟩
  simp only [getYearMonthDay, hav, hbv, hcv, hdv, hev, hmv, hday, hmonth,
    hyear, Option.bind_eq_bind, Option.bind_some, Option.pure_def]

/-- The years of the formula begin twelve cycles of 400 years earlier. -/
theorem yearStart_shift
    (year : Int) :
    365 * (year + 4800) + (year + 4800) / 4 - (year + 4800) / 100 +
      (year + 4800) / 400 = yearStart year + 1753164 :=
  yearStart_add_cycles year 12

/-- Where nothing overflows: the year and the month are counted from March of
-4800 on. -/
theorem getJulianDayNumber_value
    {ymd : Date.YearMonthDay} {date : CivilDate} {j : CInt}
    (hshows : ymd.Shows date) (hlow : -4800 ≤ date.marchYear)
    (hj : getJulianDayNumber ymd.year ymd.month ymd.day = some j) :
    j.toInt = date.dayNumber + 1721120 := by
  obtain ⟨hyear, hmonth, hday⟩ := hshows
  have hpos := date.month_pos
  have hle := date.month_le
  simp only [getJulianDayNumber, Option.bind_eq_bind, Option.bind_eq_some_iff,
    value_eq_some_iff] at hj
  obtain ⟨a, ha, y, hy, m, hm, hj⟩ := hj
  simp [hyear, hmonth, hday] at ha hy hm hj
  rw [Int.tdiv_eq_ediv_of_nonneg (by omega)] at ha
  have hmarchYear : y.toInt = date.marchYear + 4800 := by
    rw [CivilDate.marchYear]
    split <;> omega
  have hmarchMonth : m.toInt = date.marchMonth := by
    rw [CivilDate.marchMonth]
    split <;> omega
  have hmonths := date.marchMonth_bounds
  rw [hmarchYear, hmarchMonth] at hj
  simp (disch := omega) only [Int.tdiv_eq_ediv_of_nonneg] at hj
  have hshift := yearStart_shift date.marchYear
  rw [CivilDate.dayNumber, CivilDate.dayOfYear, monthStart, step]
  omega

section Variables

variable {ymd : Date.YearMonthDay} {date : CivilDate} {a y m : CInt}

theorem januaryFebruary_hasValue
    (hshows : ymd.Shows date) :
    ((14 - ymd.month) / 12 : CIntExpr).HasValue
      (if date.month ≤ 2 then 1 else 0) := by
  have hpos := date.month_pos
  have hle := date.month_le
  simp [hshows.2.1]
  rw [Int.tdiv_eq_ediv_of_nonneg (by omega)]
  split <;> omega

theorem years_hasValue
    (hshows : ymd.Shows date)
    (ha : a.toInt = if date.month ≤ 2 then 1 else 0)
    (hlow : -4800 ≤ date.marchYear) (hhigh : date.year ≤ 1465102) :
    (ymd.year + 4800 - a : CIntExpr).HasValue (date.marchYear + 4800) := by
  rw [CivilDate.marchYear] at hlow ⊢
  simp [hshows.1, ha]
  split_ifs at * <;> omega

theorem months_hasValue
    (hshows : ymd.Shows date)
    (ha : a.toInt = if date.month ≤ 2 then 1 else 0) :
    (ymd.month + 12 * a - 3 : CIntExpr).HasValue date.marchMonth := by
  have hpos := date.month_pos
  have hle := date.month_le
  rw [CivilDate.marchMonth]
  simp [hshows.2.1, ha]
  split_ifs <;> omega

/-- Up to the last year that is converted back the sum is far from the bound. -/
theorem sum_hasValue
    (hshows : ymd.Shows date) (hy : y.toInt = date.marchYear + 4800)
    (hm : m.toInt = date.marchMonth)
    (hlow : -4800 ≤ date.marchYear) (hhigh : date.marchYear ≤ 1465102) :
    (ymd.day + (153 * m + 2) / 5 + y * 365 + y / 4 - y / 100 + y / 400 -
      32045 : CIntExpr).HasValue (date.dayNumber + 1721120) := by
  have hdpos := date.day_pos
  have hdle := date.day_le.trans (CivilDate.monthLength_le date.year date.month)
  have hmonths := date.marchMonth_bounds
  have hshift := yearStart_shift date.marchYear
  simp [hshows.2.2, hy, hm]
  simp (disch := omega) only [Int.tdiv_eq_ediv_of_nonneg]
  rw [CivilDate.dayNumber, CivilDate.dayOfYear, monthStart, step]
  omega

end Variables

theorem getJulianDayNumber_isSome
    {ymd : Date.YearMonthDay} {date : CivilDate}
    (hshows : ymd.Shows date) (hlow : -4800 ≤ date.marchYear)
    (hhigh : date.year ≤ 1465102) :
    ∃ j, getJulianDayNumber ymd.year ymd.month ymd.day = some j := by
  have hyears : date.marchYear ≤ 1465102 := by
    rw [CivilDate.marchYear]
    split <;> omega
  obtain ⟨a, hav, ha⟩ := januaryFebruary_hasValue hshows
  obtain ⟨y, hyv, hy⟩ := years_hasValue hshows ha hlow hhigh
  obtain ⟨m, hmv, hm⟩ := months_hasValue hshows ha
  obtain ⟨j, hjv, hj⟩ := sum_hasValue hshows hy hm hlow hyears
  refine ⟨j, ?_⟩
  simp only [getJulianDayNumber, hav, hyv, hmv, hjv, Option.bind_eq_bind,
    Option.bind_some]

end Julian

namespace Date

/-- The date of the Julian day number -32044. -/
def firstDate : CivilDate where
  year := -4800
  month := 3
  day := 1
  month_pos := by decide
  month_le := by decide
  day_pos := by decide
  day_le := by decide

/-- The date of the Julian day number 536838867, after which `4 * a + 3`
overflows. -/
def lastDate : CivilDate where
  year := 1465102
  month := 10
  day := 18
  month_pos := by decide
  month_le := by decide
  day_pos := by decide
  day_le := by decide

theorem firstDate_le_iff
    (date : CivilDate) :
    firstDate ≤ date ↔ -1753164 ≤ date.dayNumber := by
  rw [← dayCount.le_iff_le]
  exact Iff.rfl

theorem le_lastDate_iff
    (date : CivilDate) :
    date ≤ lastDate ↔ date.dayNumber ≤ 535117747 := by
  rw [← dayCount.le_iff_le]
  exact Iff.rfl

theorem marchYear_of_firstDate_le
    {date : CivilDate} (h : firstDate ≤ date) :
    -4800 ≤ date.marchYear := by
  have hfirst : -1753164 ≤ date.dayNumber := (firstDate_le_iff date).mp h
  by_contra hlt
  have hend := date.dayNumber_in_year.2
  have hmono : yearStart (date.marchYear + 1) ≤ yearStart (-4800) :=
    yearStart_mono (Int.not_le.mp hlt)
  have hvalue : yearStart (-4800) = -1753164 := rfl
  omega

theorem year_of_le_lastDate
    {date : CivilDate} (h : date ≤ lastDate) :
    date.year ≤ 1465102 := by
  by_contra hlt
  refine absurd h (not_le.mpr ?_)
  rw [CivilDate.lt_iff]
  exact .inl (Int.not_le.mp hlt)

namespace YearMonthDay

/-- The lexicographic order is that of these triples. -/
def lexTriple (ymd : YearMonthDay) : Int ×ₗ Int ×ₗ Int :=
  toLex (ymd.year.toInt, toLex (ymd.month.toInt, ymd.day.toInt))

theorem Shows.lexTriple_eq
    {ymd : YearMonthDay} {date : CivilDate} (h : ymd.Shows date) :
    ymd.lexTriple = date.lexTriple := by
  rw [lexTriple, CivilDate.lexTriple, h.1, h.2.1, h.2.2]

theorem Shows.unique
    {ymd ymd' : YearMonthDay} {date : CivilDate}
    (h : ymd.Shows date) (h' : ymd'.Shows date) :
    ymd = ymd' := by
  cases ymd
  cases ymd'
  rw [YearMonthDay.mk.injEq]
  exact ⟨BitVec.eq_of_toInt_eq (h.1.trans h'.1.symm),
    BitVec.eq_of_toInt_eq (h.2.1.trans h'.2.1.symm),
    BitVec.eq_of_toInt_eq (h.2.2.trans h'.2.2.symm)⟩

end YearMonthDay

/-- A day number from the first one on is converted into its date, and back. -/
theorem getYearMonthDay_inverse
    {j : CInt} (hlow : -32044 ≤ j.toInt) (hhigh : j.toInt ≤ 536838867) :
    ∃ ymd date, getYearMonthDay j = some ymd ∧
      ymd.Shows date ∧ firstDate ≤ date ∧ date ≤ lastDate ∧
      date.dayNumber + 1721120 = j.toInt ∧
      getJulianDayNumber ymd.year ymd.month ymd.day = some j := by
  have hj : j.toInt = j.toInt - 1721120 + 1721120 := by
    omega
  obtain ⟨ymd, hymd, hshows⟩ := getYearMonthDay_some hj hlow hhigh
  have hnumber : (ofDayNumber (j.toInt - 1721120)).dayNumber + 1721120 =
      j.toInt := by
    rw [dayNumber_ofDayNumber]
    exact hj.symm
  have hfirst : firstDate ≤ ofDayNumber (j.toInt - 1721120) := by
    rw [firstDate_le_iff]
    omega
  have hlast : ofDayNumber (j.toInt - 1721120) ≤ lastDate := by
    rw [le_lastDate_iff]
    omega
  refine ⟨ymd, ofDayNumber (j.toInt - 1721120), hymd, hshows, hfirst, hlast,
    hnumber, ?_⟩
  obtain ⟨j', hj'⟩ := getJulianDayNumber_isSome hshows
    (marchYear_of_firstDate_le hfirst) (year_of_le_lastDate hlast)
  have hvalue := getJulianDayNumber_value hshows
    (marchYear_of_firstDate_le hfirst) hj'
  rw [hj', BitVec.eq_of_toInt_eq (hvalue.trans hnumber)]

/-- A date is converted into its day number, and back. -/
theorem getJulianDayNumber_inverse
    {ymd : YearMonthDay} {date : CivilDate} (hshows : ymd.Shows date)
    (hfirst : firstDate ≤ date) :
    (getJulianDayNumber ymd.year ymd.month ymd.day).bind getYearMonthDay =
      if date ≤ lastDate then some ymd else none := by
  have hmarch := marchYear_of_firstDate_le hfirst
  rw [firstDate_le_iff] at hfirst
  split
  · rename_i hlast
    obtain ⟨j, hj⟩ := getJulianDayNumber_isSome hshows hmarch
      (year_of_le_lastDate hlast)
    have hvalue := getJulianDayNumber_value hshows hmarch hj
    rw [le_lastDate_iff] at hlast
    obtain ⟨ymd', hymd', hshows'⟩ := getYearMonthDay_some hvalue
      (by omega) (by omega)
    rw [ofDayNumber_dayNumber] at hshows'
    rw [hj, Option.bind_some, hymd', hshows'.unique hshows]
  · rename_i hlast
    rw [le_lastDate_iff] at hlast
    cases hj : getJulianDayNumber ymd.year ymd.month ymd.day with
    | none =>
        rfl
    | some j =>
        have hvalue := getJulianDayNumber_value hshows hmarch hj
        rw [Option.bind_some]
        exact getYearMonthDay_none (by omega)

/-- Dates are compared as their days are counted. -/
theorem less_iff_lexTriple
    {ymd ymd' : YearMonthDay} {date date' : CivilDate} {d d' : Date}
    (hshows : ymd.Shows date) (hshows' : ymd'.Shows date')
    (hfirst : firstDate ≤ date) (hfirst' : firstDate ≤ date')
    (hd : ofYearMonthDay ymd.year ymd.month ymd.day = some d)
    (hd' : ofYearMonthDay ymd'.year ymd'.month ymd'.day = some d') :
    d.less d' = true ↔ ymd.lexTriple < ymd'.lexTriple := by
  obtain ⟨j, hj, rfl⟩ := Option.map_eq_some_iff.mp hd
  obtain ⟨j', hj', rfl⟩ := Option.map_eq_some_iff.mp hd'
  have hvalue := getJulianDayNumber_value hshows
    (marchYear_of_firstDate_le hfirst) hj
  have hvalue' := getJulianDayNumber_value hshows'
    (marchYear_of_firstDate_le hfirst') hj'
  calc
    (Date.mk j).less (Date.mk j') = true ↔ j.toInt < j'.toInt :=
      BitVec.slt_iff_toInt_lt
    _ ↔ date.dayNumber < date'.dayNumber := by
      omega
    _ ↔ date < date' := dayCount.lt_iff_lt
    _ ↔ ymd.lexTriple < ymd'.lexTriple := by
      rw [hshows.lexTriple_eq, hshows'.lexTriple_eq]
      exact Iff.rfl

/-- The conversions are inverse to each other from the first date on, as far
as they do not overflow, and the order of the dates is the order of the
calendar. -/
theorem conversions_calendar :
    (∀ (ymd : YearMonthDay) (date : CivilDate),
      ymd.Shows date → firstDate ≤ date →
      (getJulianDayNumber ymd.year ymd.month ymd.day).bind getYearMonthDay =
        if date ≤ lastDate then some ymd else none) ∧
    (∀ j : CInt, -32044 ≤ j.toInt →
      if j.toInt ≤ 536838867 then
        ∃ (ymd : YearMonthDay) (date : CivilDate),
          getYearMonthDay j = some ymd ∧ ymd.Shows date ∧ firstDate ≤ date ∧
          getJulianDayNumber ymd.year ymd.month ymd.day = some j
      else getYearMonthDay j = none) ∧
    (∀ (ymd ymd' : YearMonthDay) (date : CivilDate) (j j' : CInt),
      ymd.Shows date → ymd'.Shows date.next → firstDate ≤ date →
      getJulianDayNumber ymd.year ymd.month ymd.day = some j →
      getJulianDayNumber ymd'.year ymd'.month ymd'.day = some j' →
      j'.toInt = j.toInt + 1) ∧
    (∀ (ymd ymd' : YearMonthDay) (date date' : CivilDate) (d d' : Date),
      ymd.Shows date → ymd'.Shows date' →
      firstDate ≤ date → firstDate ≤ date' →
      ofYearMonthDay ymd.year ymd.month ymd.day = some d →
      ofYearMonthDay ymd'.year ymd'.month ymd'.day = some d' →
      (d.less d' = true ↔ ymd.lexTriple < ymd'.lexTriple)) := by
  refine ⟨?inverse, ?number, ?nextDay, ?order⟩
  case inverse =>
    intro ymd date hshows hfirst
    exact getJulianDayNumber_inverse hshows hfirst
  case number =>
    intro j hlow
    split
    · rename_i hhigh
      obtain ⟨ymd, date, hymd, hshows, hfirst, -, -, hj⟩ :=
        getYearMonthDay_inverse hlow hhigh
      exact ⟨ymd, date, hymd, hshows, hfirst, hj⟩
    · rename_i hhigh
      exact getYearMonthDay_none (Int.not_le.mp hhigh)
  case nextDay =>
    intro ymd ymd' date j j' hshows hshows' hfirst hj hj'
    have hmarch := marchYear_of_firstDate_le hfirst
    have hmarch' := marchYear_of_firstDate_le
      (hfirst.trans (next_covBy date).le)
    rw [getJulianDayNumber_value hshows hmarch hj,
      getJulianDayNumber_value hshows' hmarch' hj', date.dayNumber_next]
    omega
  case order =>
    intro ymd ymd' date date' d d' hshows hshows' hfirst hfirst' hd hd'
    exact less_iff_lexTriple hshows hshows' hfirst hfirst' hd hd'

/-- The leap day of a year that ends a century. -/
theorem conversions_calendar_leapDay :
    (getJulianDayNumber 2000 2 29).bind getYearMonthDay =
      some ⟨2000, 2, 29⟩ :=
  conversions_calendar.1 ⟨2000, 2, 29⟩
    { year := 2000
      month := 2
      day := 29
      month_pos := by decide
      month_le := by decide
      day_pos := by decide
      day_le := by decide }
    ⟨rfl, rfl, rfl⟩ (by decide)

end Date

end Hohnor
