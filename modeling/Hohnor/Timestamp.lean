import Hohnor.FixedWidth
import Hohnor.GregorianCalendar
import Hohnor.StringConverter
import Mathlib.Data.Char

/-!
# The texts of a time

`toString` and `toFormattedString` of src/time/Timestamp.cpp.  The library's
gmtime_r is taken from the calendar; localtime_r depends on the time zone and is
a parameter.

From 1970 to 9999 the formatted texts in GMT have one width for each field, so
their order as texts is the order of the times.  `toString` has no fixed width,
but it is different for different times, also before 1970, where both numbers
are printed with a sign.
-/

namespace Hohnor

open FixedWidth GregorianCalendar

/-- The fields of `struct tm` that are printed. -/
structure Tm where
  tm_year : Int
  tm_mon : Int
  tm_mday : Int
  tm_hour : Int
  tm_min : Int
  tm_sec : Int
deriving DecidableEq, Repr

/-- The days from 1 March of the year 0 to 1 January 1970. -/
def epochDay : Int :=
  719468

def gmtime_r (seconds : Int) : Tm :=
  let date := ofDayNumber (seconds / 86400 + epochDay)
  { tm_year := date.year - 1900
    tm_mon := date.month - 1
    tm_mday := date.day
    tm_hour := seconds % 86400 / 3600
    tm_min := seconds % 3600 / 60
    tm_sec := seconds % 60 }

/-- `%0wd`: the sign counts for the width. -/
def zeroPadded (w : Nat) (value : Int) : List Char :=
  if value < 0 then
    '-' :: (Nat.toDigits 10 value.natAbs).leftpad (w - 1) '0'
  else
    (Nat.toDigits 10 value.natAbs).leftpad w '0'

/-- `%wd`. -/
def blankPadded (w : Nat) (value : Int) : List Char :=
  (StringConverter.decimalText value).leftpad w ' '

/-- snprintf into a buffer of `size` bytes: what is left of the text. -/
def snprintf (size : Nat) (text : List Char) : List Char :=
  text.take (size - 1)

structure Timestamp where
  microSecondsSinceEpoch_ : Int64
deriving DecidableEq, Repr

inductive TimeStandard where
  | UTC
  | GMT
deriving DecidableEq, Repr

namespace Timestamp

def kMicroSecondsPerSecond : Int :=
  1000 * 1000

/-- `operator<`. -/
def less (lhs rhs : Timestamp) : Bool :=
  lhs.microSecondsSinceEpoch_ < rhs.microSecondsSinceEpoch_

def secondsSinceEpoch (t : Timestamp) : Int :=
  t.microSecondsSinceEpoch_.toInt.tdiv kMicroSecondsPerSecond

/-- `microSecondsSinceEpoch_ % kMicroSecondsPerSecond`. -/
def microseconds (t : Timestamp) : Int :=
  t.microSecondsSinceEpoch_.toInt.tmod kMicroSecondsPerSecond

def toString (t : Timestamp) : List Char :=
  snprintf 32
    (StringConverter.decimalText t.secondsSinceEpoch ++
      '.' :: zeroPadded 6 t.microseconds)

/-- `%4d-%02d-%02d %02d:%02d:%02d` of the fields. -/
def dateText (tm_time : Tm) : List Char :=
  blankPadded 4 (tm_time.tm_year + 1900) ++
    '-' :: zeroPadded 2 (tm_time.tm_mon + 1) ++
    '-' :: zeroPadded 2 tm_time.tm_mday ++
    ' ' :: zeroPadded 2 tm_time.tm_hour ++
    ':' :: zeroPadded 2 tm_time.tm_min ++
    ':' :: zeroPadded 2 tm_time.tm_sec

section Timestamp

variable (localtime_r : Int → Tm)

/-- `toFormattedString`; `localtime_r` answers in the zone of the process. -/
def toFormattedString
    (t : Timestamp) (showMicroseconds : Bool) (standard : TimeStandard) :
    List Char :=
  let seconds := t.secondsSinceEpoch
  let tm_time :=
    if standard = .GMT then gmtime_r seconds else localtime_r seconds
  if showMicroseconds then
    snprintf 64 (dateText tm_time ++ '.' :: zeroPadded 6 t.microseconds)
  else
    snprintf 64 (dateText tm_time)

end Timestamp

end Timestamp

theorem digitChar_lt
    (c d : Nat) (hlt : c < d) (hd : d < 10) :
    c.digitChar < d.digitChar := by
  interval_cases d <;> interval_cases c <;> decide

theorem leftpad_concat
    {α : Type} (w : Nat) (c : α) (l : List α) (d : α) :
    (l ++ [d]).leftpad (w + 1) c = l.leftpad w c ++ [d] := by
  simp [List.leftpad]

theorem numeral_zero
    (w : Nat) :
    numeral Nat.digitChar 10 w 0 = List.replicate w '0' := by
  induction w with
  | zero =>
      rfl
  | succ w ih =>
      rw [numeral, Nat.zero_div, ih, List.replicate_succ']
      rfl

/-- Digits with zeros in front are the numeral of that width. -/
theorem leftpad_toDigits
    {w n : Nat} (hw : 0 < w) (hn : n < 10 ^ w) :
    (Nat.toDigits 10 n).leftpad w '0' = numeral Nat.digitChar 10 w n := by
  induction w generalizing n with
  | zero =>
      exact absurd hw (Nat.lt_irrefl 0)
  | succ w ih =>
      rw [numeral]
      rcases Nat.lt_or_ge n 10 with hshort | hlong
      · rw [Nat.toDigits_of_lt_base hshort, Nat.div_eq_of_lt hshort,
          Nat.mod_eq_of_lt hshort, numeral_zero]
        simp [List.leftpad]
      · have hquot := div_lt_pow hn
        have hw' : 0 < w := by
          by_contra hzero
          rw [Nat.eq_zero_of_not_pos hzero, Nat.pow_zero] at hquot
          omega
        rw [Nat.toDigits_of_base_le (by decide) hlong, leftpad_concat,
          ih hw' hquot]

/-- A number that is not too wide, padded with zeros, is a numeral. -/
theorem zeroPadded_eq_numeral
    {w : Nat} {value : Int} (hw : 0 < w)
    (hlow : 0 ≤ value) (hhigh : value < 10 ^ w) :
    zeroPadded w value = numeral Nat.digitChar 10 w value.toNat := by
  obtain ⟨n, rfl⟩ := Int.eq_ofNat_of_zero_le hlow
  rw [zeroPadded, if_neg (Int.not_lt.mpr hlow), Int.natAbs_natCast,
    Int.toNat_natCast, leftpad_toDigits hw (by exact_mod_cast hhigh)]

/-- Four digits need no padding. -/
theorem decimalText_eq_numeral
    {value : Int} (hlow : 1000 ≤ value) (hhigh : value < 10000) :
    StringConverter.decimalText value =
      numeral Nat.digitChar 10 4 value.toNat := by
  obtain ⟨n, rfl⟩ := Int.eq_ofNat_of_zero_le (Int.le_trans (by decide) hlow)
  have hlength : 4 ≤ (Nat.toDigits 10 n).length := by
    by_contra hshort
    have hle := (Nat.length_toDigits_le_iff (n := n) (b := 10) (k := 3)
      (by decide) (by decide)).mp (by omega)
    omega
  rw [StringConverter.decimalText,
    if_neg (Int.not_lt.mpr (Int.natCast_nonneg n)), List.nil_append,
    Int.natAbs_natCast, Int.toNat_natCast,
    ← leftpad_toDigits (by decide) (by omega), List.leftpad,
    Nat.sub_eq_zero_of_le hlength, List.replicate_zero, List.nil_append]

theorem blankPadded_eq_numeral
    {value : Int} (hlow : 1000 ≤ value) (hhigh : value < 10000) :
    blankPadded 4 value = numeral Nat.digitChar 10 4 value.toNat := by
  rw [blankPadded, decimalText_eq_numeral hlow hhigh, List.leftpad,
    length_numeral, Nat.sub_self, List.replicate_zero, List.nil_append]

/-- A sign, or none, and digits. -/
def readSigned (text : List Char) : Int :=
  if text.head? = some '-' then -(Nat.ofDigitChars 10 text.tail 0 : Int)
  else Nat.ofDigitChars 10 text 0

theorem ofDigitChars_leftpad
    (w n : Nat) :
    Nat.ofDigitChars 10 ((Nat.toDigits 10 n).leftpad w '0') 0 = n := by
  rw [List.leftpad, Nat.ofDigitChars_append,
    Nat.ofDigitChars_replicate_zero, Nat.mul_zero,
    Nat.ofDigitChars_ten_toDigits]

theorem isDigit_of_mem_leftpad
    {w n : Nat} {c : Char} (hc : c ∈ (Nat.toDigits 10 n).leftpad w '0') :
    c.isDigit = true := by
  rw [List.leftpad, List.mem_append] at hc
  rcases hc with hzero | hdigit
  · rw [(List.mem_replicate.mp hzero).2]
    rfl
  · exact Nat.isDigit_of_mem_toDigits (by decide) (by decide) hdigit

theorem readSigned_zeroPadded
    (w : Nat) (value : Int) :
    readSigned (zeroPadded w value) = value := by
  rw [zeroPadded, readSigned]
  split
  next hneg =>
    rw [List.head?_cons, if_pos rfl, List.tail_cons, ofDigitChars_leftpad]
    omega
  next hnonneg =>
    rw [if_neg, ofDigitChars_leftpad]
    · omega
    · intro hsign
      have hdigit :=
        isDigit_of_mem_leftpad (List.mem_of_head? hsign)
      exact absurd hdigit (by decide)

theorem zeroPadded_inj
    {w : Nat} {value value' : Int} :
    zeroPadded w value = zeroPadded w value' ↔ value = value' := by
  refine ⟨fun h => ?_, fun h => by rw [h]⟩
  rw [← readSigned_zeroPadded w value, h, readSigned_zeroPadded]

/-- `%d` pads with nothing. -/
theorem decimalText_eq_zeroPadded
    (value : Int) :
    StringConverter.decimalText value = zeroPadded 0 value := by
  rw [StringConverter.decimalText, zeroPadded]
  split <;> simp [List.leftpad]

theorem ne_point_of_mem_zeroPadded
    {w : Nat} {value : Int} {c : Char} (hc : c ∈ zeroPadded w value) :
    c ≠ '.' := by
  rintro rfl
  rw [zeroPadded] at hc
  split at hc
  next =>
    rcases List.mem_cons.mp hc with hsign | hdigit
    · exact absurd hsign (by decide)
    · exact absurd (isDigit_of_mem_leftpad hdigit) (by decide)
  next => exact absurd (isDigit_of_mem_leftpad hc) (by decide)

/-- The first point of a text is where it is cut. -/
theorem cut_at_point
    {xs xs' ys ys' : List Char}
    (hxs : ∀ c ∈ xs, c ≠ '.') (hxs' : ∀ c ∈ xs', c ≠ '.')
    (h : xs ++ '.' :: ys = xs' ++ '.' :: ys') :
    xs = xs' ∧ ys = ys' := by
  induction xs generalizing xs' with
  | nil =>
      cases xs' with
      | nil => exact ⟨rfl, (List.cons.inj h).2⟩
      | cons c xs' =>
          exact absurd (List.cons.inj h).1.symm
            (hxs' c (List.mem_cons_self ..))
  | cons c xs ih =>
      cases xs' with
      | nil =>
          exact absurd (List.cons.inj h).1 (hxs c (List.mem_cons_self ..))
      | cons c' xs' =>
          obtain ⟨hc, hrest⟩ := List.cons.inj h
          obtain ⟨hxs'', hys⟩ :=
            ih (fun d hd => hxs d (List.mem_cons_of_mem c hd))
              (fun d hd => hxs' d (List.mem_cons_of_mem c' hd)) hrest
          exact ⟨by rw [hc, hxs''], hys⟩

theorem length_zeroPadded_le
    {w k : Nat} {value : Int} (hk : 0 < k) (hw : w ≤ k + 1)
    (hvalue : value.natAbs < 10 ^ k) :
    (zeroPadded w value).length ≤ k + 1 := by
  have hdigits : (Nat.toDigits 10 value.natAbs).length ≤ k :=
    (Nat.length_toDigits_le_iff (by decide) hk).mpr hvalue
  rw [zeroPadded]
  split
  · rw [List.length_cons, List.length_leftpad]
    omega
  · rw [List.length_leftpad]
    omega

/-- The seconds from 1970 to the end of the year 9999. -/
def fourDigitYears : Int :=
  253402300800

theorem january_pos :
    (1 : Int) ≤ 1 :=
  le_rfl

theorem january_le :
    (1 : Int) ≤ 12 := by
  decide

theorem january_has_first
    (year : Int) :
    1 ≤ GregorianCalendar.monthLength year 1 := by
  have hlength := CivilDate.monthLength_pos year 1
  omega

/-- The first days of the years 1970 and 10000. -/
def firstOf (year : Int) : CivilDate where
  year := year
  month := 1
  day := 1
  month_pos := january_pos
  month_le := january_le
  day_pos := january_pos
  day_le := january_has_first year

theorem firstOf_le_iff
    (year : Int) (date : CivilDate) :
    firstOf year ≤ date ↔ year ≤ date.year := by
  have hmonth := date.month_pos
  have hday := date.day_pos
  rw [← not_lt, CivilDate.lt_iff]
  simp only [firstOf]
  omega

/-- The date of a time, as it is counted in days. -/
def dateOf (seconds : Int) : CivilDate :=
  ofDayNumber (seconds / 86400 + epochDay)

theorem dateOf_lt_iff
    (a b : Int) :
    dateOf a < dateOf b ↔ a / 86400 < b / 86400 := by
  rw [dateOf, dateOf, ← CivilDate.dayNumber_strictMono.lt_iff_lt,
    dayNumber_ofDayNumber, dayNumber_ofDayNumber]
  exact add_lt_add_iff_right epochDay

theorem dateOf_year
    {seconds : Int} (hlow : 0 ≤ seconds) (hhigh : seconds < fourDigitYears) :
    1970 ≤ (dateOf seconds).year ∧ (dateOf seconds).year < 10000 := by
  have hfirst : (firstOf 1970).dayNumber = epochDay := by decide
  have hlast : (firstOf 10000).dayNumber = 2932897 + epochDay := by decide
  rw [fourDigitYears] at hhigh
  constructor
  · rw [← firstOf_le_iff, ← CivilDate.dayNumber_strictMono.le_iff_le,
      hfirst, dateOf, dayNumber_ofDayNumber]
    omega
  · rw [← not_le, ← firstOf_le_iff, not_le,
      ← CivilDate.dayNumber_strictMono.lt_iff_lt, hlast, dateOf,
      dayNumber_ofDayNumber]
    omega

def dateNumbers (date : CivilDate) : List Nat :=
  [date.year.toNat, date.month.toNat, date.day.toNat]

theorem dateNumbers_lt_iff
    {date date' : CivilDate} (hyear : 0 ≤ date.year) (hyear' : 0 ≤ date'.year) :
    dateNumbers date < dateNumbers date' ↔ date < date' := by
  have hmonth := date.month_pos
  have hmonth' := date'.month_pos
  have hday := date.day_pos
  have hday' := date'.day_pos
  simp only [dateNumbers, CivilDate.lt_iff, List.cons_lt_cons_iff, lt_irrefl,
    and_false, or_false]
  omega

def timeNumbers (seconds : Int) : List Nat :=
  [(seconds % 86400 / 3600).toNat, (seconds % 3600 / 60).toNat,
    (seconds % 60).toNat]

theorem timeNumbers_lt_iff
    (a b : Int) :
    timeNumbers a < timeNumbers b ↔ a % 86400 < b % 86400 := by
  simp only [timeNumbers, List.cons_lt_cons_iff, lt_irrefl, and_false,
    or_false]
  omega

/-- The numbers in the text of a time in GMT. -/
def numbers (seconds : Int) : List Nat :=
  dateNumbers (dateOf seconds) ++ timeNumbers seconds

@[simp] theorem length_numbers
    (seconds : Int) :
    (numbers seconds).length = 6 := by
  rfl

/-- The numbers of a later time come later. -/
theorem numbers_lt_iff
    {a b : Int} (ha : 0 ≤ a) (ha' : a < fourDigitYears)
    (hb : 0 ≤ b) (hb' : b < fourDigitYears) :
    numbers a < numbers b ↔ a < b := by
  have hyear := (dateOf_year ha ha').1
  have hyear' := (dateOf_year hb hb').1
  have hlt := @dateNumbers_lt_iff (dateOf a) (dateOf b) (by omega) (by omega)
  have hgt := @dateNumbers_lt_iff (dateOf b) (dateOf a) (by omega) (by omega)
  rw [dateOf_lt_iff] at hlt hgt
  have heq := eq_iff_of_lt_iff hlt hgt
  rw [numbers, numbers, append_lt_append_iff (by rfl), hlt, heq,
    timeNumbers_lt_iff]
  omega

/-- The columns of dateText. -/
def dateColumns : List (Column Char) :=
  [⟨[], 4⟩, ⟨['-'], 2⟩, ⟨['-'], 2⟩, ⟨[' '], 2⟩, ⟨[':'], 2⟩, ⟨[':'], 2⟩]

theorem numbers_fit
    {seconds : Int} (hlow : 0 ≤ seconds) (hhigh : seconds < fourDigitYears) :
    Fits 10 dateColumns (numbers seconds) := by
  have hyear := dateOf_year hlow hhigh
  have hmonth := (dateOf seconds).month_le
  have hday := (dateOf seconds).day_le
  have hlength := CivilDate.monthLength_le (dateOf seconds).year
    (dateOf seconds).month
  simp only [dateColumns, Fits, numbers, dateNumbers, timeNumbers,
    List.cons_append, List.nil_append, Nat.reducePow, and_true]
  omega

/-- The printed fields of a time in GMT are numerals. -/
theorem gmtime_r_padded
    {seconds : Int} (hlow : 0 ≤ seconds) (hhigh : seconds < fourDigitYears) :
    let tm := gmtime_r seconds
    let number := numeral Nat.digitChar 10
    StringConverter.decimalText (tm.tm_year + 1900) =
        number 4 (dateOf seconds).year.toNat ∧
      blankPadded 4 (tm.tm_year + 1900) =
        number 4 (dateOf seconds).year.toNat ∧
      zeroPadded 2 (tm.tm_mon + 1) = number 2 (dateOf seconds).month.toNat ∧
      zeroPadded 2 tm.tm_mday = number 2 (dateOf seconds).day.toNat ∧
      zeroPadded 2 tm.tm_hour = number 2 (seconds % 86400 / 3600).toNat ∧
      zeroPadded 2 tm.tm_min = number 2 (seconds % 3600 / 60).toNat ∧
      zeroPadded 2 tm.tm_sec = number 2 (seconds % 60).toNat := by
  intro tm number
  have hyear := dateOf_year hlow hhigh
  have hmonth := (dateOf seconds).month_le
  have hday := (dateOf seconds).day_le
  have hmonth' := (dateOf seconds).month_pos
  have hday' := (dateOf seconds).day_pos
  have hlength := CivilDate.monthLength_le (dateOf seconds).year
    (dateOf seconds).month
  have htwo :
      ∀ value : Int, 0 ≤ value → value < 100 →
        zeroPadded 2 value = number 2 value.toNat :=
    fun _ h h' => zeroPadded_eq_numeral (by decide) h (by simpa using h')
  have htm_year : tm.tm_year + 1900 = (dateOf seconds).year :=
    Int.sub_add_cancel _ _
  have htm_mon : tm.tm_mon + 1 = (dateOf seconds).month :=
    Int.sub_add_cancel _ _
  rw [htm_year, htm_mon]
  exact
    ⟨decimalText_eq_numeral (by omega) (by omega),
      blankPadded_eq_numeral (by omega) (by omega),
      htwo _ (by omega) (by omega),
      htwo (dateOf seconds).day (by omega) (by omega),
      htwo (seconds % 86400 / 3600) (by omega) (by omega),
      htwo (seconds % 3600 / 60) (by omega) (by omega),
      htwo (seconds % 60) (by omega) (by omega)⟩

theorem dateText_eq_render
    {seconds : Int} (hlow : 0 ≤ seconds) (hhigh : seconds < fourDigitYears) :
    Timestamp.dateText (gmtime_r seconds) =
      render Nat.digitChar 10 dateColumns (numbers seconds) := by
  obtain ⟨-, hyear, hmonth, hday, hhour, hmin, hsec⟩ :=
    gmtime_r_padded hlow hhigh
  rw [Timestamp.dateText, hyear, hmonth, hday, hhour, hmin, hsec]
  simp [render, dateColumns, numbers, dateNumbers, timeNumbers]

namespace Timestamp

section Timestamp

variable {localtime_r : Int → Tm}

/-- The time is from 1970 to 9999. -/
def InFourDigitYears (t : Timestamp) : Prop :=
  0 ≤ t.microSecondsSinceEpoch_.toInt ∧
    t.secondsSinceEpoch < fourDigitYears

instance (t : Timestamp) : Decidable t.InFourDigitYears :=
  inferInstanceAs (Decidable (_ ∧ _))

theorem less_iff
    (t t' : Timestamp) :
    t.less t' = true ↔
      t.microSecondsSinceEpoch_.toInt < t'.microSecondsSinceEpoch_.toInt := by
  rw [less, decide_eq_true_iff, Int64.lt_iff_toInt_lt]

/-- The columns of the formatted text. -/
def columns (showMicroseconds : Bool) : List (Column Char) :=
  dateColumns ++ if showMicroseconds then [⟨['.'], 6⟩] else []

def formattedNumbers (t : Timestamp) (showMicroseconds : Bool) : List Nat :=
  numbers t.secondsSinceEpoch ++
    if showMicroseconds then [t.microseconds.toNat] else []

theorem microseconds_bounds
    {t : Timestamp} (ht : 0 ≤ t.microSecondsSinceEpoch_.toInt) :
    0 ≤ t.microseconds ∧ t.microseconds < 1000000 ∧
      0 ≤ t.secondsSinceEpoch ∧
      t.microSecondsSinceEpoch_.toInt =
        1000000 * t.secondsSinceEpoch + t.microseconds := by
  rw [microseconds, secondsSinceEpoch, Int.tmod_eq_emod_of_nonneg ht,
    Int.tdiv_eq_ediv_of_nonneg ht, kMicroSecondsPerSecond]
  omega

theorem formattedNumbers_fit
    {t : Timestamp} (ht : t.InFourDigitYears) (showMicroseconds : Bool) :
    Fits 10 (columns showMicroseconds)
      (t.formattedNumbers showMicroseconds) := by
  obtain ⟨hlow, hhigh, hseconds, _⟩ := microseconds_bounds ht.1
  refine (numbers_fit hseconds ht.2).append ?_
  cases showMicroseconds with
  | false => trivial
  | true =>
      simp only [if_true, Fits, Nat.reducePow, and_true]
      omega

/-- In GMT the text is that of a template. -/
theorem toFormattedString_eq_render
    {t : Timestamp} (ht : t.InFourDigitYears) (showMicroseconds : Bool) :
    t.toFormattedString localtime_r showMicroseconds .GMT =
      render Nat.digitChar 10 (columns showMicroseconds)
        (t.formattedNumbers showMicroseconds) := by
  obtain ⟨hlow, hhigh, hseconds, _⟩ := microseconds_bounds ht.1
  have hfit := numbers_fit hseconds ht.2
  have hwidth :
      (render Nat.digitChar 10 dateColumns
        (numbers t.secondsSinceEpoch)).length = 19 := by
    simp [render, dateColumns, numbers, dateNumbers, timeNumbers]
  rw [toFormattedString, columns, formattedNumbers, render_append hfit,
    if_pos rfl, dateText_eq_render hseconds ht.2]
  cases showMicroseconds with
  | false =>
      rw [if_neg Bool.false_ne_true, if_neg Bool.false_ne_true,
        if_neg Bool.false_ne_true, snprintf, List.take_of_length_le (by omega)]
      simp [render]
  | true =>
      rw [if_pos rfl, if_pos rfl, if_pos rfl, snprintf,
        zeroPadded_eq_numeral (by decide) hlow (by simpa using hhigh),
        List.take_of_length_le]
      · simp [render]
      · simp [hwidth]

theorem formattedNumbers_lt_iff
    {t t' : Timestamp}
    (ht : t.InFourDigitYears) (ht' : t'.InFourDigitYears)
    (showMicroseconds : Bool) :
    t.formattedNumbers showMicroseconds <
        t'.formattedNumbers showMicroseconds ↔
      t.secondsSinceEpoch < t'.secondsSinceEpoch ∨
        t.secondsSinceEpoch = t'.secondsSinceEpoch ∧
          showMicroseconds = true ∧ t.microseconds < t'.microseconds := by
  obtain ⟨hlow, -, hseconds, -⟩ := microseconds_bounds ht.1
  obtain ⟨hlow', -, hseconds', -⟩ := microseconds_bounds ht'.1
  have hlt := numbers_lt_iff hseconds ht.2 hseconds' ht'.2
  have heq := eq_iff_of_lt_iff hlt
    (numbers_lt_iff hseconds' ht'.2 hseconds ht.2)
  rw [formattedNumbers, formattedNumbers,
    append_lt_append_iff (by rw [length_numbers, length_numbers]), hlt, heq]
  cases showMicroseconds with
  | false => simp
  | true =>
      simp only [if_true, List.cons_lt_cons_iff, lt_irrefl, and_false,
        or_false, true_and]
      omega

/-- The order of the texts in GMT is that of the times, and without the
microseconds that of the seconds; so a text with microseconds belongs to one
time only. -/
theorem toFormattedString_order
    {t t' : Timestamp}
    (ht : t.InFourDigitYears) (ht' : t'.InFourDigitYears) :
    (t.toFormattedString localtime_r true .GMT <
        t'.toFormattedString localtime_r true .GMT ↔
      t.less t' = true) ∧
    (t.toFormattedString localtime_r true .GMT =
        t'.toFormattedString localtime_r true .GMT ↔ t = t') ∧
    (t.toFormattedString localtime_r false .GMT <
        t'.toFormattedString localtime_r false .GMT ↔
      t.secondsSinceEpoch < t'.secondsSinceEpoch) := by
  have horder :
      ∀ {u u' : Timestamp}, u.InFourDigitYears → u'.InFourDigitYears →
        (u.toFormattedString localtime_r true .GMT <
            u'.toFormattedString localtime_r true .GMT ↔
          u.less u' = true) := by
    intro u u' hu hu'
    have hvalue := microseconds_bounds hu.1
    have hvalue' := microseconds_bounds hu'.1
    rw [toFormattedString_eq_render hu, toFormattedString_eq_render hu',
      render_lt_iff (by decide) digitChar_lt (formattedNumbers_fit hu true)
        (formattedNumbers_fit hu' true),
      formattedNumbers_lt_iff hu hu', less_iff]
    simp only [true_and]
    omega
  refine ⟨horder ht ht', ?_, ?_⟩
  · have hlt := horder ht ht'
    have hgt := horder ht' ht
    rw [less_iff] at hlt hgt
    rw [eq_iff_of_lt_iff hlt hgt, Int64.toInt_inj]
    cases t
    cases t'
    simp
  · rw [toFormattedString_eq_render ht, toFormattedString_eq_render ht',
      render_lt_iff (by decide) digitChar_lt (formattedNumbers_fit ht false)
        (formattedNumbers_fit ht' false),
      formattedNumbers_lt_iff ht ht']
    simp

/-- One microsecond apart, across the end of a year. -/
theorem toFormattedString_order_new_year :
    let t : Timestamp := ⟨1704067199999999⟩
    let t' : Timestamp := ⟨1704067200000000⟩
    (t.toFormattedString gmtime_r true .GMT <
        t'.toFormattedString gmtime_r true .GMT ↔
      t.less t' = true) ∧
    (t.toFormattedString gmtime_r true .GMT =
        t'.toFormattedString gmtime_r true .GMT ↔ t = t') ∧
    (t.toFormattedString gmtime_r false .GMT <
        t'.toFormattedString gmtime_r false .GMT ↔
      t.secondsSinceEpoch < t'.secondsSinceEpoch) :=
  toFormattedString_order (by decide) (by decide)

/-- Different times have different texts, whatever the sign. -/
theorem toString_inj
    (t t' : Timestamp) :
    t.toString = t'.toString ↔ t = t' := by
  have hwhole :
      ∀ u : Timestamp, u.toString =
        zeroPadded 0 u.secondsSinceEpoch ++
          '.' :: zeroPadded 6 u.microseconds := by
    intro u
    have hvalue := Int64.toInt_lt u.microSecondsSinceEpoch_
    have hvalue' := Int64.le_toInt u.microSecondsSinceEpoch_
    have hseconds :
        (zeroPadded 0 u.secondsSinceEpoch).length ≤ 13 + 1 := by
      refine length_zeroPadded_le (by decide) (by decide) ?_
      rw [secondsSinceEpoch, Int.natAbs_tdiv]
      change _ / 1000000 < 10 ^ 13
      omega
    have hmicroseconds :
        (zeroPadded 6 u.microseconds).length ≤ 6 + 1 := by
      refine length_zeroPadded_le (by decide) (by decide) ?_
      rw [microseconds, Int.natAbs_tmod]
      exact Nat.mod_lt _ (by decide)
    rw [Timestamp.toString, snprintf, decimalText_eq_zeroPadded,
      List.take_of_length_le]
    rw [List.length_append, List.length_cons]
    omega
  refine ⟨fun h => ?_, fun h => by rw [h]⟩
  rw [hwhole, hwhole] at h
  obtain ⟨hseconds, hmicroseconds⟩ :=
    cut_at_point (fun _ hc => ne_point_of_mem_zeroPadded hc)
      (fun _ hc => ne_point_of_mem_zeroPadded hc) h
  rw [zeroPadded_inj] at hseconds hmicroseconds
  have hvalue := Int.mul_tdiv_add_tmod
    t.microSecondsSinceEpoch_.toInt kMicroSecondsPerSecond
  have hvalue' := Int.mul_tdiv_add_tmod
    t'.microSecondsSinceEpoch_.toInt kMicroSecondsPerSecond
  rw [secondsSinceEpoch, secondsSinceEpoch] at hseconds
  rw [microseconds, microseconds] at hmicroseconds
  rw [hseconds, hmicroseconds, hvalue'] at hvalue
  have hsame := Int64.toInt_inj.mp hvalue
  cases t
  cases t'
  simp only at hsame
  rw [hsame]

end Timestamp

end Timestamp

end Hohnor
