import Mathlib.Algebra.Order.SuccPred
import Mathlib.Data.Int.ConditionallyCompleteOrder
import Mathlib.Data.Int.SuccPred
import Mathlib.Data.Prod.Lex
import Mathlib.Order.Cover
import Mathlib.Order.Hom.Basic
import Mathlib.Order.GaloisConnection.Basic
import Mathlib.Tactic.IntervalCases
import Mathlib.Tactic.Linarith

/-!
# The proleptic Gregorian calendar

The years are counted from March on, so that the leap day is the last day of a
year.  Then the days before a year of a century and before a month of a year
are the steps of a staircase, the floor of a linear function, and the year and
the month of a day are found by the inverse staircase.

`dayCount` is the order isomorphism between the dates and the integers that
counts the days from 1 March of the year 0 on; the day after a date has the
next number.
-/

namespace GregorianCalendar

section Staircases

/-- The steps of a staircase of slope `p / q`. -/
def step (p q r n : Int) : Int :=
  (p * n + r) / q

/-- The last step that is not above `x`. -/
def lastStep (p q r x : Int) : Int :=
  (q * x + (q - 1 - r)) / p

variable {p q : Int} (hp : 0 < p) (hq : 0 < q) (r : Int)

include hp hq

theorem step_le_iff
    (n x : Int) :
    step p q r n ≤ x ↔ n ≤ lastStep p q r x := by
  rw [step, lastStep, ← Int.lt_add_one_iff, Int.ediv_lt_iff_lt_mul hq,
    Int.le_ediv_iff_mul_le hp]
  constructor
  · intro h
    linarith [Int.add_one_le_iff.mpr h]
  · intro h
    linarith

theorem step_galoisConnection :
    GaloisConnection (step p q r) (lastStep p q r) :=
  step_le_iff hp hq r

/-- Between two steps. -/
theorem lastStep_eq_iff
    (n x : Int) :
    lastStep p q r x = n ↔ step p q r n ≤ x ∧ x < step p q r (n + 1) := by
  have hlow := step_le_iff hp hq r n x
  have hhigh := step_le_iff hp hq r (n + 1) x
  omega

end Staircases

/-- Every fourth year, but of those that end a century every fourth one. -/
def IsLeap (year : Int) : Prop :=
  4 ∣ year ∧ (100 ∣ year → 400 ∣ year)

instance (year : Int) : Decidable (IsLeap year) :=
  inferInstanceAs (Decidable (_ ∧ (_ → _)))

def monthLength (year month : Int) : Int :=
  if month = 2 then
    if IsLeap year then 29 else 28
  else if month = 4 ∨ month = 6 ∨ month = 9 ∨ month = 11 then 30
  else 31

@[ext] structure CivilDate where
  year : Int
  month : Int
  day : Int
  month_pos : 1 ≤ month
  month_le : month ≤ 12
  day_pos : 1 ≤ day
  day_le : day ≤ monthLength year month
deriving DecidableEq, Repr

namespace CivilDate

/-- Dates are compared by the year, then the month, then the day. -/
def lexTriple (date : CivilDate) : Int ×ₗ Int ×ₗ Int :=
  toLex (date.year, toLex (date.month, date.day))

theorem lexTriple_injective :
    Function.Injective lexTriple := by
  intro date date' heq
  obtain ⟨hyear, hrest⟩ := Prod.mk.inj (toLex.injective heq)
  obtain ⟨hmonth, hday⟩ := Prod.mk.inj (toLex.injective hrest)
  exact CivilDate.ext hyear hmonth hday

instance : LinearOrder CivilDate :=
  @LinearOrder.lift' _ _
    (@Prod.Lex.instLinearOrder _ _ Int.instLinearOrder
      (@Prod.Lex.instLinearOrder _ _ Int.instLinearOrder
        Int.instLinearOrder))
    lexTriple lexTriple_injective

theorem lt_iff
    (date date' : CivilDate) :
    date < date' ↔
      date.year < date'.year ∨
        date.year = date'.year ∧
          (date.month < date'.month ∨
            date.month = date'.month ∧ date.day < date'.day) := by
  change date.lexTriple < date'.lexTriple ↔ _
  rw [lexTriple, lexTriple, Prod.Lex.toLex_lt_toLex,
    Prod.Lex.toLex_lt_toLex]

theorem monthLength_pos
    (year month : Int) :
    28 ≤ monthLength year month := by
  rw [monthLength]
  split_ifs <;> decide

theorem monthLength_le
    (year month : Int) :
    monthLength year month ≤ 31 := by
  rw [monthLength]
  split_ifs <;> decide

/-- The day after a date, over the ends of months and years. -/
def next (date : CivilDate) : CivilDate :=
  if hday : date.day < monthLength date.year date.month then
    { date with
      day := date.day + 1
      day_pos := by
        have := date.day_pos
        omega
      day_le := hday }
  else if hmonth : date.month < 12 then
    { year := date.year
      month := date.month + 1
      day := 1
      month_pos := by
        have := date.month_pos
        omega
      month_le := hmonth
      day_pos := le_refl 1
      day_le := by
        have := monthLength_pos date.year (date.month + 1)
        omega }
  else
    { year := date.year + 1
      month := 1
      day := 1
      month_pos := le_refl 1
      month_le := by decide
      day_pos := le_refl 1
      day_le := by
        have := monthLength_pos (date.year + 1) 1
        omega }

/-- The year that began in March. -/
def marchYear (date : CivilDate) : Int :=
  if date.month ≤ 2 then date.year - 1 else date.year

/-- March is 0, and February 11. -/
def marchMonth (date : CivilDate) : Int :=
  if date.month ≤ 2 then date.month + 9 else date.month - 3

end CivilDate

/-- The days before a year, from 1 March of the year 0 on. -/
def yearStart (year : Int) : Int :=
  365 * year + year / 4 - year / 100 + year / 400

/-- The days of the year before a month, from March on. -/
def monthStart (month : Int) : Int :=
  step 153 5 2 month

theorem yearStart_mono
    {year year' : Int} (h : year < year') :
    yearStart (year + 1) ≤ yearStart year' := by
  rw [yearStart, yearStart]
  omega

/-- The calendar repeats itself every 400 years. -/
theorem yearStart_add_cycles
    (year cycles : Int) :
    yearStart (year + 400 * cycles) = yearStart year + 146097 * cycles := by
  have hfour : (year + 400 * cycles) / 4 = year / 4 + 100 * cycles := by
    omega
  have hhundred : (year + 400 * cycles) / 100 = year / 100 + 4 * cycles := by
    omega
  have hrule : (year + 400 * cycles) / 400 = year / 400 + cycles := by
    omega
  rw [yearStart, yearStart, hfour, hhundred, hrule]
  omega

/-- A year from March on has its leap day at the end. -/
theorem yearStart_succ
    (year : Int) :
    yearStart (year + 1) =
      yearStart year + 337 + monthLength (year + 1) 2 := by
  rw [yearStart, yearStart, monthLength, if_pos rfl]
  split
  · rename_i hleap
    obtain ⟨h4, h100⟩ := hleap
    omega
  · rename_i hleap
    rw [IsLeap, not_and_or, Classical.not_imp] at hleap
    omega

/-- The months but February have their lengths between two steps. -/
theorem monthStart_succ
    (year : Int) {month : Int} (hlow : 0 ≤ month) (hhigh : month ≤ 10) :
    monthStart (month + 1) =
      monthStart month +
        monthLength year (if month ≤ 9 then month + 3 else month - 9) := by
  interval_cases month <;> rfl

namespace CivilDate

/-- The days of the year before a date, from March on. -/
def dayOfYear (date : CivilDate) : Int :=
  monthStart date.marchMonth + (date.day - 1)

/-- The days from 1 March of the year 0 up to a date. -/
def dayNumber (date : CivilDate) : Int :=
  yearStart date.marchYear + date.dayOfYear

theorem marchMonth_bounds
    (date : CivilDate) :
    0 ≤ date.marchMonth ∧ date.marchMonth ≤ 11 := by
  have hpos := date.month_pos
  have hle := date.month_le
  rw [marchMonth]
  split <;> omega

/-- The order of dates is also the one from March on. -/
theorem lt_iff_march
    (date date' : CivilDate) :
    date < date' ↔
      date.marchYear < date'.marchYear ∨
        date.marchYear = date'.marchYear ∧
          (date.marchMonth < date'.marchMonth ∨
            date.marchMonth = date'.marchMonth ∧ date.day < date'.day) := by
  have hpos := date.month_pos
  have hle := date.month_le
  have hpos' := date'.month_pos
  have hle' := date'.month_le
  rw [lt_iff, marchYear, marchYear, marchMonth, marchMonth]
  split <;> split <;> omega

theorem monthStart_le_dayOfYear
    (date : CivilDate) :
    monthStart date.marchMonth ≤ date.dayOfYear := by
  have hday := date.day_pos
  rw [dayOfYear]
  omega

/-- The next month starts after the days of this one, but for February. -/
theorem monthStart_after
    (date : CivilDate) (hmonth : date.marchMonth ≤ 10) :
    monthStart (date.marchMonth + 1) =
      monthStart date.marchMonth + monthLength date.year date.month := by
  have hpos := date.month_pos
  have hle := date.month_le
  rw [monthStart_succ date.year date.marchMonth_bounds.1 hmonth]
  have hback :
      (if date.marchMonth ≤ 9 then date.marchMonth + 3
        else date.marchMonth - 9) = date.month := by
    rw [marchMonth] at hmonth ⊢
    split_ifs at * <;> omega
  rw [hback]

theorem dayOfYear_lt_monthStart
    (date : CivilDate) (hmonth : date.marchMonth ≤ 10) :
    date.dayOfYear < monthStart (date.marchMonth + 1) := by
  have hday := date.day_le
  rw [dayOfYear, date.monthStart_after hmonth]
  omega

theorem monthStart_mono
    {month month' : Int} (h : month ≤ month') :
    monthStart month ≤ monthStart month' :=
  (step_galoisConnection (by decide) (by decide) 2).monotone_l h

theorem dayOfYear_nonneg
    (date : CivilDate) :
    0 ≤ date.dayOfYear :=
  calc
    0 = monthStart 0 := rfl
    _ ≤ monthStart date.marchMonth :=
      monthStart_mono date.marchMonth_bounds.1
    _ ≤ date.dayOfYear := date.monthStart_le_dayOfYear

/-- A date lies before the first of March that follows. -/
theorem dayOfYear_lt
    (date : CivilDate) :
    date.dayOfYear < 337 + monthLength (date.marchYear + 1) 2 := by
  have hmonth := date.marchMonth_bounds.2
  by_cases hfeb : date.marchMonth ≤ 10
  · have hlt := date.dayOfYear_lt_monthStart hfeb
    have hstart : monthStart (date.marchMonth + 1) ≤ monthStart 11 :=
      monthStart_mono (by omega)
    have hlength := monthLength_pos (date.marchYear + 1) 2
    have heleven : monthStart 11 = 337 := rfl
    omega
  · have heleven : date.marchMonth = 11 := by
      omega
    have hle := date.month_le
    have hday := date.day_le
    have htwo : date.month = 2 := by
      rw [marchMonth] at heleven
      split at heleven <;> omega
    have hyear : date.marchYear + 1 = date.year := by
      rw [marchYear, if_pos (by omega)]
      omega
    rw [dayOfYear, heleven, hyear]
    rw [htwo] at hday
    have hstart : monthStart 11 = 337 := rfl
    omega

theorem dayNumber_in_year
    (date : CivilDate) :
    yearStart date.marchYear ≤ date.dayNumber ∧
      date.dayNumber < yearStart (date.marchYear + 1) := by
  have hlow := date.dayOfYear_nonneg
  have hhigh := date.dayOfYear_lt
  rw [dayNumber, yearStart_succ]
  omega

theorem dayNumber_strictMono :
    StrictMono dayNumber := by
  intro date date' hlt
  rcases (lt_iff_march date date').mp hlt with
    hyear | ⟨hyear, hmonth | ⟨hmonth, hday⟩⟩
  · calc
      date.dayNumber < yearStart (date.marchYear + 1) :=
        date.dayNumber_in_year.2
      _ ≤ yearStart date'.marchYear := yearStart_mono hyear
      _ ≤ date'.dayNumber := date'.dayNumber_in_year.1
  · have hnext := date.dayOfYear_lt_monthStart (by
      have := date'.marchMonth_bounds.2
      omega)
    have hstart : monthStart (date.marchMonth + 1) ≤
        monthStart date'.marchMonth :=
      monthStart_mono hmonth
    have hstart' := date'.monthStart_le_dayOfYear
    rw [dayNumber, dayNumber, hyear]
    omega
  · rw [dayNumber, dayNumber, dayOfYear, dayOfYear, hyear, hmonth]
    omega

/-- The first of a month follows the last of the month before. -/
theorem dayNumber_next
    (date : CivilDate) :
    date.next.dayNumber = date.dayNumber + 1 := by
  have hpos := date.month_pos
  have hle := date.month_le
  have hday := date.day_le
  by_cases hin : date.day < monthLength date.year date.month
  · rw [next, dif_pos hin]
    simp only [dayNumber, dayOfYear, marchYear, marchMonth]
    omega
  have hlast : date.day = monthLength date.year date.month := by
    omega
  by_cases hfeb : date.month = 2
  · -- the last of February ends a year from March on
    have hyear := yearStart_succ (date.year - 1)
    rw [sub_add_cancel] at hyear
    rw [hfeb] at hlast
    have hdec : date.month < 12 := by
      omega
    rw [next, dif_neg hin, dif_pos hdec]
    simp only [dayNumber, dayOfYear, marchYear, marchMonth, hfeb, hlast]
    have heleven : monthStart (2 + 9) = 337 := rfl
    have hzero : monthStart (2 + 1 - 3) = 0 := rfl
    norm_num at heleven hzero ⊢
    omega
  · have hmonth : date.marchMonth ≤ 10 := by
      rw [marchMonth]
      split <;> omega
    have hstart := date.monthStart_after hmonth
    have hyear : date.next.marchYear = date.marchYear := by
      rw [next, dif_neg hin]
      split <;> (simp only [marchYear]; split_ifs <;> omega)
    have hnext : date.next.marchMonth = date.marchMonth + 1 := by
      rw [next, dif_neg hin]
      split <;> (simp only [marchMonth]; split_ifs <;> omega)
    have hfirst : date.next.day = 1 := by
      rw [next, dif_neg hin]
      split <;> rfl
    rw [dayNumber, dayNumber, dayOfYear, dayOfYear, hyear, hnext, hfirst,
      hstart, hlast]
    omega

end CivilDate

/-- The centuries of a day number, counted from March on. -/
def centuryOf (n : Int) : Int :=
  lastStep 146097 4 0 n

def dayOfCentury (n : Int) : Int :=
  n - step 146097 4 0 (centuryOf n)

def yearOfCentury (n : Int) : Int :=
  lastStep 1461 4 0 (dayOfCentury n)

def yearOf (n : Int) : Int :=
  100 * centuryOf n + yearOfCentury n

def dayOfYearOf (n : Int) : Int :=
  dayOfCentury n - step 1461 4 0 (yearOfCentury n)

def monthOf (n : Int) : Int :=
  lastStep 153 5 2 (dayOfYearOf n)

/-- The leap days within a century are those of every fourth year. -/
theorem yearStart_century
    (century : Int) {year : Int} (hlow : 0 ≤ year) (hhigh : year < 100) :
    yearStart (100 * century + year) =
      step 146097 4 0 century + step 1461 4 0 year := by
  have hhundred : (100 * century + year) / 100 = century := by
    omega
  have hfour : (100 * century + year) / 4 = 25 * century + year / 4 := by
    omega
  have hrule : (100 * century + year) / 400 = century / 4 := by
    omega
  have hcenturies : (146097 * century + 0) / 4 =
      36524 * century + century / 4 := by
    omega
  have hyears : (1461 * year + 0) / 4 = 365 * year + year / 4 := by
    omega
  rw [yearStart, step, step, hhundred, hfour, hrule, hcenturies, hyears]
  omega

theorem centuryOf_spec
    (n : Int) :
    step 146097 4 0 (centuryOf n) ≤ n ∧
      n < step 146097 4 0 (centuryOf n + 1) :=
  (lastStep_eq_iff (by decide) (by decide) 0 (centuryOf n) n).mp rfl

theorem dayOfCentury_bounds
    (n : Int) :
    0 ≤ dayOfCentury n ∧ dayOfCentury n < 36525 := by
  obtain ⟨hlow, hhigh⟩ := centuryOf_spec n
  rw [step] at hlow hhigh
  rw [dayOfCentury, step]
  omega

theorem yearOfCentury_bounds
    (n : Int) :
    0 ≤ yearOfCentury n ∧ yearOfCentury n < 100 := by
  obtain ⟨hlow, hhigh⟩ := dayOfCentury_bounds n
  rw [yearOfCentury, lastStep]
  omega

theorem dayOfYearOf_eq
    (n : Int) :
    dayOfYearOf n = n - yearStart (yearOf n) := by
  obtain ⟨hlow, hhigh⟩ := yearOfCentury_bounds n
  rw [dayOfYearOf, dayOfCentury, yearOf, yearStart_century _ hlow hhigh]
  omega

/-- The century rule: the last year of a century may end a day early. -/
theorem yearOf_spec
    (n : Int) :
    yearStart (yearOf n) ≤ n ∧ n < yearStart (yearOf n + 1) := by
  have hcentury := centuryOf_spec n
  obtain ⟨hlow, hhigh⟩ := yearOfCentury_bounds n
  have hyear := (lastStep_eq_iff (by decide) (by decide) 0 (yearOfCentury n)
    (dayOfCentury n)).mp rfl
  have hday : n = step 146097 4 0 (centuryOf n) + dayOfCentury n := by
    rw [dayOfCentury]
    omega
  constructor
  · rw [yearOf, yearStart_century _ hlow hhigh]
    omega
  · by_cases hlast : yearOfCentury n = 99
    · have hend := yearStart_century (centuryOf n + 1) (le_refl 0) (by decide)
      have hzero : step 1461 4 0 0 = 0 := rfl
      have hnext :
          yearOf n + 1 = 100 * (centuryOf n + 1) + 0 := by
        rw [yearOf]
        omega
      rw [hnext, hend]
      omega
    · rw [yearOf, add_assoc, yearStart_century _ (by omega) (by omega)]
      omega

theorem dayOfYearOf_bounds
    (n : Int) :
    0 ≤ dayOfYearOf n ∧
      dayOfYearOf n < 337 + monthLength (yearOf n + 1) 2 := by
  have hyear := yearOf_spec n
  rw [yearStart_succ] at hyear
  rw [dayOfYearOf_eq]
  omega

theorem dayOfYearOf_lt
    (n : Int) :
    dayOfYearOf n < 366 := by
  have hlt := (dayOfYearOf_bounds n).2
  have hfeb : monthLength (yearOf n + 1) 2 ≤ 29 := by
    rw [monthLength, if_pos rfl]
    split <;> decide
  omega

theorem monthOf_spec
    (n : Int) :
    monthStart (monthOf n) ≤ dayOfYearOf n ∧
      dayOfYearOf n < monthStart (monthOf n + 1) :=
  (lastStep_eq_iff (by decide) (by decide) 2 (monthOf n) (dayOfYearOf n)).mp rfl

theorem monthOf_bounds
    (n : Int) :
    0 ≤ monthOf n ∧ monthOf n ≤ 11 := by
  have hlow := (dayOfYearOf_bounds n).1
  have hhigh := dayOfYearOf_lt n
  rw [monthOf, lastStep]
  omega

/-- The date of a number, with its month counted from January on. -/
@[simps] def ofDayNumber (n : Int) : CivilDate where
  year := yearOf n + monthOf n / 10
  month := monthOf n + 3 - 12 * (monthOf n / 10)
  day := dayOfYearOf n - monthStart (monthOf n) + 1
  month_pos := by
    have := monthOf_bounds n
    omega
  month_le := by
    have := monthOf_bounds n
    omega
  day_pos := by
    have := monthOf_spec n
    omega
  day_le := by
    obtain ⟨hlow, hhigh⟩ := monthOf_bounds n
    by_cases hfeb : monthOf n = 11
    · have hlt := (dayOfYearOf_bounds n).2
      have heleven : monthStart 11 = 337 := rfl
      rw [hfeb, heleven]
      norm_num
      omega
    · have hlt := (monthOf_spec n).2
      have hmonth : monthOf n ≤ 10 := by
        omega
      have hback :
          (if monthOf n ≤ 9 then monthOf n + 3 else monthOf n - 9) =
            monthOf n + 3 - 12 * (monthOf n / 10) := by
        split <;> omega
      rw [monthStart_succ (yearOf n + monthOf n / 10) hlow hmonth,
        hback] at hlt
      omega

theorem marchYear_ofDayNumber
    (n : Int) :
    (ofDayNumber n).marchYear = yearOf n := by
  have hmonth := monthOf_bounds n
  rw [CivilDate.marchYear, ofDayNumber_month, ofDayNumber_year]
  split_ifs <;> omega

theorem marchMonth_ofDayNumber
    (n : Int) :
    (ofDayNumber n).marchMonth = monthOf n := by
  have hmonth := monthOf_bounds n
  rw [CivilDate.marchMonth, ofDayNumber_month]
  split_ifs <;> omega

theorem dayNumber_ofDayNumber
    (n : Int) :
    (ofDayNumber n).dayNumber = n := by
  rw [CivilDate.dayNumber, CivilDate.dayOfYear, marchYear_ofDayNumber,
    marchMonth_ofDayNumber, ofDayNumber_day, dayOfYearOf_eq]
  omega

theorem ofDayNumber_dayNumber
    (date : CivilDate) :
    ofDayNumber date.dayNumber = date :=
  CivilDate.dayNumber_strictMono.injective
    (dayNumber_ofDayNumber date.dayNumber)

/-- Counting the days puts the dates into the order of the integers. -/
def dayCount : CivilDate ≃o Int where
  toFun := CivilDate.dayNumber
  invFun := ofDayNumber
  left_inv := ofDayNumber_dayNumber
  right_inv := dayNumber_ofDayNumber
  map_rel_iff' := CivilDate.dayNumber_strictMono.le_iff_le

/-- The date after a date is the least one that is greater. -/
theorem next_covBy
    (date : CivilDate) :
    date ⋖ date.next := by
  rw [← apply_covBy_apply_iff dayCount, Order.covBy_iff_add_one_eq]
  exact date.dayNumber_next.symm

end GregorianCalendar
