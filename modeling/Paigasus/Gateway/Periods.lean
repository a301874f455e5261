import Paigasus.Foundation.Delimited
import Paigasus.Gateway.Limits

/-!
# Budget periods

The days of a kind of period fall into consecutive intervals, and the key of a
day is that of its interval.  So the key of an instant, its start, its end, its
label and the lifetime of a charge to it all speak of one interval of instants,
for as long as the end is still a date.
-/

namespace Paigasus.Gateway

open Foundation Calendar

/-- A year with four digits at least; the sign is one of the four. -/
def yearText (year : Int) : List Char :=
  if year < 0 then '-' :: zeroPadded 3 year.natAbs
  else zeroPadded 4 year.natAbs

/-- The year of a date: a year of more than four digits has a sign. -/
def dateYearText (year : Int) : List Char :=
  if 0 ≤ year ∧ year ≤ 9999 then zeroPadded 4 year.natAbs
  else if year < 0 then '-' :: zeroPadded 4 year.natAbs
  else '+' :: zeroPadded 4 year.natAbs

namespace PeriodKey

def label : PeriodKey → String
  | .day date =>
      String.ofList (dateYearText date.year ++ '-' ::
        (zeroPadded 2 date.month ++ '-' ::
          zeroPadded 2 date.dayOfMonth.toNat))
  | .week year number =>
      String.ofList (yearText year ++ '-' :: 'W' :: zeroPadded 2 number)
  | .month year number =>
      String.ofList (yearText year ++ '-' :: zeroPadded 2 number)

/-- The midnight a period starts at, in nanoseconds since the epoch. -/
def startInstant (key : PeriodKey) : Int :=
  (key.startDate.day - epochDay) * 86400 * 1000000000

/-- The first instant of the next period. -/
def endInstant (key : PeriodKey) : Int :=
  (key.endDate.day - epochDay) * 86400 * 1000000000

/-- The end, when it is a date. -/
def checkedEndDate (key : PeriodKey) : Option NaiveDate :=
  match key with
  | .day _ => key.startDate.checkedAddDays 1
  | .week _ _ => key.startDate.checkedAddDays 7
  | .month _ _ => key.startDate.checkedAddMonth

theorem endDate_eq (key : PeriodKey) :
    key.endDate = key.checkedEndDate.getD .max := by
  cases key <;> rfl

end PeriodKey

namespace BudgetPeriod

/-- The label of the period that resets at the given second. -/
def labelAtReset (period : BudgetPeriod) (resetsAtUnix : I64) : String :=
  (period.keyAtUnix (max (resetsAtUnix.saturatingSub 1) 0)).label

def keyOfDate (period : BudgetPeriod) (date : NaiveDate) : PeriodKey :=
  match period with
  | .daily => .day date
  | .weekly => .week (isoYear date.day) (isoWeek date.day)
  | .monthly => .month date.year date.month

/-- The first day of the period of a day. -/
def firstDay (period : BudgetPeriod) (day : Int) : Int :=
  match period with
  | .daily => day
  | .weekly => mondayOf day
  | .monthly => monthDay (yearOf day) (monthOfDay day)

/-- The first day of the period after that of a day. -/
def nextDay (period : BudgetPeriod) (day : Int) : Int :=
  match period with
  | .daily => day + 1
  | .weekly => mondayOf day + 7
  | .monthly => monthDay (yearOf day) (monthOfDay day + 1)

theorem keyAtUnix_eq (period : BudgetPeriod) (secs : I64) :
    period.keyAtUnix secs = period.keyOfDate (dateAt secs) := rfl

theorem day_in_period (period : BudgetPeriod) (day : Int) :
    period.firstDay day ≤ day ∧ day < period.nextDay day := by
  cases period with
  | daily =>
      simp only [firstDay, nextDay]
      omega
  | weekly =>
      simp only [firstDay, nextDay, mondayOf]
      omega
  | monthly =>
      obtain ⟨_, _, low, high⟩ := monthOfDay_spec day
      exact ⟨low, high⟩

/-- A key is that of the days of one interval. -/
theorem keyOfDate_eq_iff (period : BudgetPeriod) (date other : NaiveDate) :
    period.keyOfDate other = period.keyOfDate date ↔
      period.firstDay date.day ≤ other.day ∧
        other.day < period.nextDay date.day := by
  cases period with
  | daily =>
      constructor
      · intro same
        cases PeriodKey.day.inj same
        exact day_in_period .daily date.day
      · rintro ⟨low, high⟩
        simp only [firstDay, nextDay] at low high
        have sameDay : other.day = date.day := by omega
        cases date
        cases other
        cases sameDay
        rfl
  | weekly =>
      constructor
      · intro same
        obtain ⟨sameYear, sameWeek⟩ := PeriodKey.week.inj same
        have monday := isoMonday_isoWeek other.day
        rw [sameYear, sameWeek, isoMonday_isoWeek] at monday
        have inWeek := day_in_period .weekly other.day
        simp only [firstDay, nextDay, ← monday] at inWeek ⊢
        exact inWeek
      · rintro ⟨low, high⟩
        have monday : mondayOf other.day = mondayOf date.day := by
          simp only [firstDay, nextDay, mondayOf] at low high
          unfold mondayOf
          omega
        simp only [keyOfDate, isoYear, isoWeek, monday]
  | monthly =>
      constructor
      · intro same
        obtain ⟨sameYear, sameMonth⟩ := PeriodKey.month.inj same
        have inMonth := day_in_period .monthly other.day
        simp only [firstDay, nextDay] at inMonth ⊢
        change yearOf other.day = yearOf date.day at sameYear
        change monthOfDay other.day = monthOfDay date.day at sameMonth
        rw [sameYear, sameMonth] at inMonth
        exact inMonth
      · rintro ⟨low, high⟩
        obtain ⟨least, most, _, _⟩ := monthOfDay_spec date.day
        obtain ⟨sameYear, sameMonth⟩ := month_eq least most low high
        simp only [keyOfDate, NaiveDate.year, NaiveDate.month, sameYear,
          sameMonth]

end BudgetPeriod

namespace NaiveDate

theorem ofDay?_eq_some {day : Int} {date : NaiveDate} :
    ofDay? day = some date ↔ date.day = day := by
  unfold ofDay?
  constructor
  · intro found
    split at found
    · cases found
      rfl
    · cases found
  · intro sameDay
    cases sameDay
    rw [dif_pos date.inRange]

theorem ofDay?_isSome {day : Int} (low : minDay ≤ day) (high : day ≤ maxDay) :
    ∃ date, ofDay? day = some date := by
  unfold ofDay?
  rw [dif_pos ⟨low, high⟩]
  exact ⟨_, rfl⟩

/-- A month has a first day. -/
theorem monthDay_lt_succ {year : Int} {month : Nat} (least : 1 ≤ month)
    (most : month ≤ 12) : monthDay year month + 1 ≤ monthDay year (month + 1) := by
  have table : ∀ leap : Bool, ∀ month : Fin 13, 1 ≤ month.val →
      monthStart leap month.val + 1 ≤ monthStart leap (month.val + 1) := by
    decide
  have step := table (isLeap year) ⟨month, by omega⟩ least
  unfold monthDay
  simp only at step
  omega

theorem monthDay_december (year : Int) :
    monthDay year 13 = monthDay (year + 1) 1 := by
  have january : monthStart (isLeap (year + 1)) 1 = 0 := by
    cases isLeap (year + 1) with
    | true => rfl
    | false => rfl
  unfold monthDay
  rw [monthStart_year, newYear_succ, january]
  omega

theorem fromYmdOpt_first {year : Int} {month : Nat} (least : 1 ≤ month)
    (most : month ≤ 12) :
    fromYmdOpt year month 1 = ofDay? (monthDay year month) := by
  have first := @monthDay_lt_succ year month least most
  rw [fromYmdOpt, if_pos ⟨least, most, le_rfl, first⟩, Int.add_sub_cancel]

/-- From the first of a month, the next month starts on its own first. -/
theorem checkedAddMonth_first {date : NaiveDate}
    (isFirst : date.day = monthDay date.year date.month) :
    date.checkedAddMonth = ofDay? (monthDay date.year (date.month + 1)) := by
  have dayOfMonth : date.dayOfMonth = 1 := by
    unfold dayOfMonth
    omega
  obtain ⟨least, most, _, _⟩ := monthOfDay_spec date.day
  change 1 ≤ date.month at least
  change date.month ≤ 12 at most
  unfold checkedAddMonth
  simp only [dayOfMonth]
  by_cases december : date.month = 12
  · have length := @monthDay_lt_succ (date.year + 1) 1 (by omega) (by omega)
    simp only [december, if_true]
    rw [Int.min_eq_left (by omega), fromYmdOpt_first (by omega) (by omega),
      ← monthDay_december]
  · have length := @monthDay_lt_succ date.year (date.month + 1) (by omega)
      (by omega)
    simp only [december, if_false]
    rw [Int.min_eq_left (by omega), fromYmdOpt_first (by omega) (by omega)]

end NaiveDate

namespace BudgetPeriod

theorem yearOf_pos {day : Int} (recent : 0 ≤ day) : 1 ≤ yearOf day := by
  have high := lt_newYear_yearOf_succ day
  by_contra early
  have ordered := newYear_mono (show yearOf day + 1 ≤ 1 by omega)
  have first : newYear 1 = 0 := rfl
  omega

theorem minDay_lt_firstDay (period : BudgetPeriod) {day : Int}
    (recent : epochDay ≤ day) : NaiveDate.minDay < period.firstDay day := by
  unfold epochDay at recent
  cases period with
  | daily =>
      simp only [firstDay, NaiveDate.minDay]
      omega
  | weekly =>
      simp only [firstDay, mondayOf, NaiveDate.minDay]
      omega
  | monthly =>
      have positive := @yearOf_pos day (by omega)
      obtain ⟨least, most, _⟩ := monthOfDay_spec day
      have fromStart := monthStart_mono (isLeap (yearOf day)) least le_rfl
        (by omega)
      have first : 0 ≤ monthStart (isLeap (yearOf day)) 1 := by
        cases isLeap (yearOf day) with
        | true => decide
        | false => decide
      simp only [firstDay, monthDay, newYear, NaiveDate.minDay]
      omega

theorem firstDay_nonneg (period : BudgetPeriod) {day : Int}
    (recent : epochDay ≤ day) : 0 ≤ period.firstDay day := by
  unfold epochDay at recent
  cases period with
  | daily =>
      simp only [firstDay]
      omega
  | weekly =>
      simp only [firstDay, mondayOf]
      omega
  | monthly =>
      have ordered := newYear_mono (yearOf_pos (show 0 ≤ day by omega))
      have first : newYear 1 = 0 := rfl
      obtain ⟨least, most, _, _⟩ := monthOfDay_spec day
      have fromStart := monthStart_mono (isLeap (yearOf day)) least le_rfl
        (show monthOfDay day ≤ 13 by omega)
      have january : monthStart (isLeap (yearOf day)) 1 = 0 := by
        cases isLeap (yearOf day) with
        | true => rfl
        | false => rfl
      simp only [firstDay, monthDay]
      omega

/-- The first day of a period is a date. -/
theorem ofDay?_firstDay (period : BudgetPeriod) {date : NaiveDate}
    (recent : epochDay ≤ date.day) :
    ∃ start, NaiveDate.ofDay? (period.firstDay date.day) = some start := by
  apply NaiveDate.ofDay?_isSome
  · have nonneg := period.firstDay_nonneg recent
    unfold NaiveDate.minDay
    omega
  · have inPeriod := period.day_in_period date.day
    have inRange := date.inRange
    omega

theorem startDate_keyOfDate (period : BudgetPeriod) {date : NaiveDate}
    (recent : epochDay ≤ date.day) :
    (period.keyOfDate date).startDate.day = period.firstDay date.day := by
  obtain ⟨start, isStart⟩ := period.ofDay?_firstDay recent
  have sameDay := NaiveDate.ofDay?_eq_some.mp isStart
  cases period with
  | daily => rfl
  | weekly =>
      simp only [firstDay] at isStart sameDay ⊢
      simp only [keyOfDate, PeriodKey.startDate, NaiveDate.fromIsoywdOpt]
      rw [if_pos (isoWeek_spec date.day), isoMonday_isoWeek, isStart,
        Option.getD_some, sameDay]
  | monthly =>
      obtain ⟨least, most, _, _⟩ := monthOfDay_spec date.day
      have first : NaiveDate.fromYmdOpt date.year date.month 1 = some start := by
        exact (NaiveDate.fromYmdOpt_first least most).trans isStart
      simp only [keyOfDate, PeriodKey.startDate]
      rw [first, Option.getD_some, sameDay]

/-- The end of a period is the first day of the next one, if that is a date. -/
theorem checkedEndDate_keyOfDate (period : BudgetPeriod) {date : NaiveDate}
    (recent : epochDay ≤ date.day) :
    (period.keyOfDate date).checkedEndDate =
      NaiveDate.ofDay? (period.nextDay date.day) := by
  have start := period.startDate_keyOfDate recent
  cases period with
  | daily => rfl
  | weekly =>
      simp only [keyOfDate] at start
      simp only [keyOfDate, PeriodKey.checkedEndDate,
        NaiveDate.checkedAddDays, start]
      rfl
  | monthly =>
      obtain ⟨least, most, low, high⟩ := monthOfDay_spec date.day
      have length := @NaiveDate.monthDay_lt_succ (yearOf date.day)
        (monthOfDay date.day) least most
      obtain ⟨sameYear, sameMonth⟩ := month_eq least most
        (le_refl (monthDay (yearOf date.day) (monthOfDay date.day)))
        (by omega)
      simp only [keyOfDate, firstDay] at start
      have year : (PeriodKey.month date.year date.month).startDate.year =
          yearOf date.day := by
        rw [NaiveDate.year, start, sameYear]
      have month : (PeriodKey.month date.year date.month).startDate.month =
          monthOfDay date.day := by
        rw [NaiveDate.month, start, sameMonth]
      simp only [keyOfDate, PeriodKey.checkedEndDate]
      rw [NaiveDate.checkedAddMonth_first (by rw [start, year, month]), year,
        month]
      rfl

theorem endDate_keyOfDate (period : BudgetPeriod) {date : NaiveDate}
    (recent : epochDay ≤ date.day)
    (isDate : (period.keyOfDate date).checkedEndDate.isSome = true) :
    (period.keyOfDate date).endDate.day = period.nextDay date.day ∧
      period.nextDay date.day ≤ NaiveDate.maxDay := by
  obtain ⟨stop, isStop⟩ := Option.isSome_iff_exists.mp isDate
  have sameDay := isStop
  rw [period.checkedEndDate_keyOfDate recent] at sameDay
  rw [PeriodKey.endDate_eq, isStop, Option.getD_some,
    ← NaiveDate.ofDay?_eq_some.mp sameDay]
  exact ⟨rfl, stop.inRange.2⟩

/-- The date of a second at or after the epoch. -/
theorem dateAt_day {secs : I64} (recent : 0 ≤ secs.val) :
    (dateAt secs).day =
      min (secs.val / 86400 + epochDay) NaiveDate.maxDay := by
  unfold dateAt
  have low : NaiveDate.minDay ≤ secs.val / 86400 + epochDay := by
    unfold NaiveDate.minDay epochDay
    omega
  by_cases high : secs.val / 86400 + epochDay ≤ NaiveDate.maxDay
  · obtain ⟨date, isDate⟩ := NaiveDate.ofDay?_isSome low high
    rw [isDate]
    simp only
    rw [NaiveDate.ofDay?_eq_some.mp isDate]
    omega
  · have noDate : NaiveDate.ofDay? (secs.val / 86400 + epochDay) = none := by
      unfold NaiveDate.ofDay?
      rw [dif_neg (fun inRange => high inRange.2)]
    rw [noDate]
    simp only
    rw [if_neg (by omega)]
    change NaiveDate.maxDay = _
    omega

theorem dateAt_day_before {secs : I64} (before : secs.val < 0) :
    (dateAt secs).day =
      max (secs.val / 86400 + epochDay) NaiveDate.minDay := by
  unfold dateAt
  have high : secs.val / 86400 + epochDay ≤ NaiveDate.maxDay := by
    unfold NaiveDate.maxDay epochDay
    omega
  by_cases low : NaiveDate.minDay ≤ secs.val / 86400 + epochDay
  · obtain ⟨date, isDate⟩ := NaiveDate.ofDay?_isSome low high
    rw [isDate]
    simp only
    rw [NaiveDate.ofDay?_eq_some.mp isDate]
    omega
  · have noDate : NaiveDate.ofDay? (secs.val / 86400 + epochDay) = none := by
      unfold NaiveDate.ofDay?
      rw [dif_neg (fun inRange => low inRange.1)]
    rw [noDate]
    simp only
    rw [if_pos before]
    change NaiveDate.minDay = _
    omega

theorem unixSecs_val {now : Int} (recent : 0 ≤ now) :
    (unixSecs now).val = min (now / 1000000000) (2 ^ 63 - 1) := by
  unfold unixSecs
  rw [if_pos recent, I64.clamp_val]
  omega

theorem dateAt_unixSecs {now : Int} (recent : 0 ≤ now) :
    (dateAt (unixSecs now)).day =
      min (now / 1000000000 / 86400 + epochDay) NaiveDate.maxDay := by
  have secs := unixSecs_val recent
  rw [dateAt_day (by omega), secs]
  unfold epochDay NaiveDate.maxDay
  omega

/-- The instant whose period `keyAt` answers: seconds are cut off towards zero,
so an instant before the epoch is read as the whole second after it. -/
def readInstant (now : SystemTime) : Int :=
  if 0 ≤ now then now else -(-now / 1000000000) * 1000000000

/-- The day of an instant, bounded by the days of the calendar. -/
theorem dateAt_readInstant (now : Int) :
    (dateAt (unixSecs now)).day =
      max (min (readInstant now / (86400 * 1000000000) + epochDay)
        NaiveDate.maxDay) NaiveDate.minDay := by
  by_cases recent : 0 ≤ now
  · rw [dateAt_unixSecs recent, readInstant, if_pos recent]
    unfold epochDay NaiveDate.maxDay NaiveDate.minDay
    omega
  · have secs : (unixSecs now).val =
        max (-(-now / 1000000000)) (-2 ^ 63) := by
      unfold unixSecs
      rw [if_neg recent, I64.clamp_val]
      omega
    rw [readInstant, if_neg recent]
    by_cases before : (unixSecs now).val < 0
    · rw [dateAt_day_before before, secs]
      unfold epochDay NaiveDate.maxDay NaiveDate.minDay
      omega
    · rw [dateAt_day (by omega), secs]
      unfold epochDay NaiveDate.maxDay NaiveDate.minDay
      omega

theorem epochDay_le_dateAt {now : Int} (recent : 0 ≤ now) :
    epochDay ≤ (dateAt (unixSecs now)).day := by
  rw [dateAt_unixSecs recent]
  unfold epochDay NaiveDate.maxDay
  omega

theorem keyAt_eq (period : BudgetPeriod) (now : SystemTime) :
    period.keyAt now = period.keyOfDate (dateAt (unixSecs now)) := rfl

theorem filter_zeroPadded (width value : Nat) :
    (zeroPadded width value).filter Char.isDigit = zeroPadded width value :=
  List.filter_eq_self.mpr zeroPadded_isDigit

theorem sign_not_mem (width value : Nat) : '-' ∉ zeroPadded width value :=
  not_mem_zeroPadded (by decide) width value

theorem yearText_injective {left right : Int}
    (same : yearText left = yearText right) : left = right := by
  have digits (year : Int) : ∃ width, (yearText year).filter Char.isDigit =
      zeroPadded width year.natAbs := by
    unfold yearText
    split
    case isTrue => exact ⟨3, filter_zeroPadded 3 _⟩
    case isFalse => exact ⟨4, filter_zeroPadded 4 _⟩
  have sign (year : Int) : '-' ∈ yearText year ↔ year < 0 := by
    unfold yearText
    split
    case isTrue negative => exact iff_of_true List.mem_cons_self negative
    case isFalse positive => exact iff_of_false (sign_not_mem 4 _) positive
  obtain ⟨leftWidth, leftDigits⟩ := digits left
  obtain ⟨rightWidth, rightDigits⟩ := digits right
  have values : left.natAbs = right.natAbs := by
    apply @zeroPadded_injective leftWidth rightWidth
    rw [← leftDigits, ← rightDigits, same]
  have signs : left < 0 ↔ right < 0 := by
    rw [← sign, ← sign, same]
  omega

theorem dateYearText_injective {left right : Int}
    (same : dateYearText left = dateYearText right) : left = right := by
  have digits (year : Int) : (dateYearText year).filter Char.isDigit =
      zeroPadded 4 year.natAbs := by
    unfold dateYearText
    split
    case isTrue => exact filter_zeroPadded 4 _
    case isFalse =>
      split
      case isTrue => exact filter_zeroPadded 4 _
      case isFalse => exact filter_zeroPadded 4 _
  have sign (year : Int) : '-' ∈ dateYearText year ↔ year < 0 := by
    unfold dateYearText
    split
    case isTrue small => exact iff_of_false (sign_not_mem 4 _) (by omega)
    case isFalse =>
      split
      case isTrue negative => exact iff_of_true List.mem_cons_self negative
      case isFalse positive =>
        refine iff_of_false ?_ positive
        intro member
        rcases List.mem_cons.mp member with isSign | inDigits
        · cases isSign
        · exact sign_not_mem 4 _ inDigits
  have values : left.natAbs = right.natAbs := by
    apply @zeroPadded_injective 4 4
    rw [← digits, ← digits, same]
  have signs : left < 0 ↔ right < 0 := by
    rw [← sign, ← sign, same]
  omega

theorem date_eq {left right : NaiveDate} (years : left.year = right.year)
    (months : left.month = right.month)
    (days : left.dayOfMonth = right.dayOfMonth) : left = right := by
  unfold NaiveDate.dayOfMonth at days
  rw [years, months] at days
  have sameDay : left.day = right.day := by omega
  cases left
  cases right
  cases sameDay
  rfl

theorem dayOfMonth_pos (date : NaiveDate) : 1 ≤ date.dayOfMonth := by
  obtain ⟨_, _, low, _⟩ := monthOfDay_spec date.day
  unfold NaiveDate.dayOfMonth NaiveDate.year NaiveDate.month
  omega

theorem day_label_injective {date other : NaiveDate}
    (same : (PeriodKey.day date).label = (PeriodKey.day other).label) :
    date = other := by
  have texts := String.ofList_injective same
  rw [← List.cons_append, ← List.append_assoc, ← List.cons_append,
    ← List.append_assoc] at texts
  obtain ⟨fronts, dayTexts⟩ :=
    last_field_eq_of_append_eq (sign_not_mem 2 _) (sign_not_mem 2 _) texts
  obtain ⟨yearTexts, monthTexts⟩ :=
    last_field_eq_of_append_eq (sign_not_mem 2 _) (sign_not_mem 2 _) fronts
  have days := zeroPadded_injective dayTexts
  have first := dayOfMonth_pos date
  have second := dayOfMonth_pos other
  exact date_eq (dateYearText_injective yearTexts)
    (zeroPadded_injective monthTexts) (by omega)

theorem week_label_injective {year otherYear : Int} {number other : Nat}
    (same : (PeriodKey.week year number).label =
      (PeriodKey.week otherYear other).label) :
    year = otherYear ∧ number = other := by
  have free (value : Nat) : '-' ∉ 'W' :: zeroPadded 2 value :=
    fun member => sign_not_mem 2 value (by simpa using member)
  obtain ⟨years, numbers⟩ := last_field_eq_of_append_eq (free _) (free _)
    (String.ofList_injective same)
  exact ⟨yearText_injective years,
    zeroPadded_injective (List.cons.inj numbers).2⟩

theorem month_label_injective {year otherYear : Int} {number other : Nat}
    (same : (PeriodKey.month year number).label =
      (PeriodKey.month otherYear other).label) :
    year = otherYear ∧ number = other := by
  obtain ⟨years, numbers⟩ := last_field_eq_of_append_eq (sign_not_mem 2 _)
    (sign_not_mem 2 _) (String.ofList_injective same)
  exact ⟨yearText_injective years, zeroPadded_injective numbers⟩

/-- The label tells the period. -/
theorem label_keyOfDate_injective (period : BudgetPeriod)
    {date other : NaiveDate}
    (same : (period.keyOfDate date).label = (period.keyOfDate other).label) :
    period.keyOfDate date = period.keyOfDate other := by
  cases period with
  | daily => exact congrArg PeriodKey.day (day_label_injective same)
  | weekly =>
      obtain ⟨years, numbers⟩ := week_label_injective same
      exact congrArg₂ PeriodKey.week years numbers
  | monthly =>
      obtain ⟨years, numbers⟩ := month_label_injective same
      exact congrArg₂ PeriodKey.month years numbers

/-- The days of the start and the end of the period of an instant. -/
theorem keyAt_days (period : BudgetPeriod) {instant : Int}
    (recent : 0 ≤ instant)
    (isDate : (period.keyAt instant).checkedEndDate.isSome = true) :
    ∃ start stop day : Int,
      (period.keyAt instant).startDate.day = start ∧
        (period.keyAt instant).endDate.day = stop ∧
          period.firstDay day = start ∧ period.nextDay day = stop ∧
            (dateAt (unixSecs instant)).day = day ∧
              start ≤ day ∧ day < stop ∧ stop ≤ NaiveDate.maxDay := by
  have afterEpoch := epochDay_le_dateAt recent
  obtain ⟨isStop, inRange⟩ := period.endDate_keyOfDate afterEpoch isDate
  obtain ⟨low, high⟩ := period.day_in_period (dateAt (unixSecs instant)).day
  exact ⟨_, _, _, period.startDate_keyOfDate afterEpoch, isStop, rfl, rfl, rfl,
    low, high, inRange⟩

/-- An instant lies in its period. -/
theorem keyAt_bounds (period : BudgetPeriod) {instant : Int}
    (recent : 0 ≤ instant)
    (isDate : (period.keyAt instant).checkedEndDate.isSome = true) :
    (period.keyAt instant).startInstant ≤ instant ∧
      instant < (period.keyAt instant).endInstant := by
  obtain ⟨start, stop, day, isStart, isStop, _, _, isDay, low, high, inRange⟩ :=
    period.keyAt_days recent isDate
  rw [dateAt_unixSecs recent] at isDay
  rw [PeriodKey.startInstant, PeriodKey.endInstant, isStart, isStop]
  unfold epochDay at *
  omega

/-- The instants with one key are those that are read between its start and its
end. -/
theorem keyAt_eq_iff (period : BudgetPeriod) {instant : Int} (other : Int)
    (recent : 0 ≤ instant)
    (isDate : (period.keyAt instant).checkedEndDate.isSome = true) :
    period.keyAt other = period.keyAt instant ↔
      (period.keyAt instant).startInstant ≤ readInstant other ∧
        readInstant other < (period.keyAt instant).endInstant := by
  obtain ⟨start, stop, day, isStart, isStop, isFirst, isNext, isDay, low, high,
    inRange⟩ := period.keyAt_days recent isDate
  have afterEpoch := epochDay_le_dateAt recent
  have late : NaiveDate.minDay < start := by
    rw [← isFirst]
    exact period.minDay_lt_firstDay (isDay ▸ afterEpoch)
  have otherDay := dateAt_readInstant other
  rw [keyAt_eq, keyAt_eq, keyOfDate_eq_iff, ← keyAt_eq,
    PeriodKey.startInstant, PeriodKey.endInstant, isStart, isStop, isDay,
    isFirst, isNext, otherDay]
  unfold epochDay at *
  omega

/-- The second before the reset lies in the period, so it has its label. -/
theorem labelAtReset_eq (period : BudgetPeriod) {instant : Int}
    (recent : 0 ≤ instant)
    (isDate : (period.keyAt instant).checkedEndDate.isSome = true) :
    period.labelAtReset (I64.clamp (period.keyAt instant).resetsAtUnix) =
      (period.keyAt instant).label := by
  obtain ⟨start, stop, day, isStart, isStop, isFirst, isNext, isDay, low, high,
    inRange⟩ := period.keyAt_days recent isDate
  have afterEpoch := epochDay_le_dateAt recent
  rw [isDay] at afterEpoch
  have resets : (period.keyAt instant).resetsAtUnix =
      (stop - epochDay) * 86400 := by
    rw [PeriodKey.resetsAtUnix, isStop]
  have before : (max ((I64.clamp ((stop - epochDay) * 86400)).saturatingSub 1)
      0 : I64).val = (stop - epochDay) * 86400 - 1 := by
    have larger : ∀ left right : I64,
        (max left right).val = max left.val right.val := by
      intro left right
      rcases le_total left right with ordered | ordered
      · have values : left.val ≤ right.val := ordered
        rw [max_eq_right ordered, max_eq_right values]
      · have values : right.val ≤ left.val := ordered
        rw [max_eq_left ordered, max_eq_left values]
    have one : (1 : I64).val = 1 := rfl
    have zero : (0 : I64).val = 0 := rfl
    rw [larger, I64.saturatingSub, I64.clamp_val, I64.clamp_val, one, zero]
    unfold epochDay NaiveDate.maxDay at *
    omega
  have sameKey : period.keyAtUnix
      (max ((I64.clamp ((stop - epochDay) * 86400)).saturatingSub 1) 0) =
      period.keyAt instant := by
    rw [keyAtUnix_eq, keyAt_eq, keyOfDate_eq_iff, isDay, isFirst, isNext,
      dateAt_day (by rw [before]; unfold epochDay at *; omega), before]
    unfold epochDay NaiveDate.maxDay at *
    omega
  rw [labelAtReset, resets, sameKey]

/-- A charge keeps a period of its own time or later for a lifetime, until the
grace is over; a lifetime has 32 bits. -/
theorem chargeTtl_isSome_iff (period : BudgetPeriod) {instant : Int}
    (recent : 0 ≤ instant)
    (isDate : (period.keyAt instant).checkedEndDate.isSome = true)
    (now : Int) :
    (chargeTtl (period.keyAt instant) now).isSome = true ↔
      now < (period.keyAt instant).endInstant +
          lateChargeGraceSecs * 1000000000 ∧
        (period.keyAt instant).resetsAtUnix + lateChargeGraceSecs -
          (now.toNat / 1000000000 : Nat) < 2 ^ 32 := by
  obtain ⟨start, stop, day, isStart, isStop, isFirst, isNext, isDay, low, high,
    inRange⟩ := period.keyAt_days recent isDate
  have afterEpoch := epochDay_le_dateAt recent
  rw [isDay] at afterEpoch
  have resets : (period.keyAt instant).resetsAtUnix =
      (stop - epochDay) * 86400 := by
    rw [PeriodKey.resetsAtUnix, isStop]
  have ends : (period.keyAt instant).endInstant =
      (stop - epochDay) * 86400 * 1000000000 := by
    rw [PeriodKey.endInstant, isStop]
  have ttl : ((I64.clamp ((period.keyAt instant).resetsAtUnix +
      lateChargeGraceSecs)).saturatingSub
        (I64.clamp (now.toNat / 1000000000 : Nat))).val =
      (stop - epochDay) * 86400 + 86400 -
        min (now.toNat / 1000000000 : Nat) (2 ^ 63 - 1) := by
    rw [I64.saturatingSub, I64.clamp_val, I64.clamp_val, I64.clamp_val, resets]
    unfold lateChargeGraceSecs epochDay NaiveDate.maxDay at *
    omega
  have seconds : (now : Int) < (stop - epochDay) * 86400 * 1000000000 +
      lateChargeGraceSecs * 1000000000 ↔
        ((now.toNat / 1000000000 : Nat) : Int) <
          (stop - epochDay) * 86400 + 86400 := by
    unfold lateChargeGraceSecs epochDay at *
    omega
  rw [ends, seconds, chargeTtl]
  simp only [ttl]
  rw [resets]
  unfold lateChargeGraceSecs epochDay NaiveDate.maxDay at *
  split
  case isTrue late =>
    simp only [Option.isSome_none, Bool.false_eq_true, false_iff]
    omega
  case isFalse inTime =>
    split
    case isTrue fits =>
      simp only [Option.isSome_some, true_iff]
      omega
    case isFalse tooLong =>
      simp only [Option.isSome_none, Bool.false_eq_true, false_iff]
      omega

end BudgetPeriod

/-- The periods of a kind cut the time after the epoch into intervals, as long
as their ends are dates; each interval has a label of its own, and takes charges
until a day after its end.  A lifetime has 32 bits, which only bears on charges
that are made long before the period. -/
theorem periods_partition_time (period : BudgetPeriod) :
    (∀ instant : SystemTime, (0 : Int) ≤ instant →
      (period.keyAt instant).checkedEndDate.isSome = true →
        (period.keyAt instant).startInstant ≤ instant ∧
        instant < (period.keyAt instant).endInstant ∧
        (∀ other : SystemTime,
          period.keyAt other = period.keyAt instant ↔
            (period.keyAt instant).startInstant ≤
                BudgetPeriod.readInstant other ∧
              BudgetPeriod.readInstant other <
                (period.keyAt instant).endInstant) ∧
        period.labelAtReset (I64.clamp (period.keyAt instant).resetsAtUnix) =
          (period.keyAt instant).label ∧
        (∀ now : SystemTime,
          (BudgetPeriod.chargeTtl (period.keyAt instant) now).isSome = true ↔
            now < (period.keyAt instant).endInstant +
                lateChargeGraceSecs * 1000000000 ∧
              (period.keyAt instant).resetsAtUnix + lateChargeGraceSecs -
                (now.toNat / 1000000000 : Nat) < 2 ^ 32)) ∧
    (∀ instant other : SystemTime, (0 : Int) ≤ instant → (0 : Int) ≤ other →
      (period.keyAt instant).label = (period.keyAt other).label →
        period.keyAt instant = period.keyAt other) := by
  constructor
  · intro instant recent isDate
    obtain ⟨low, high⟩ := period.keyAt_bounds recent isDate
    refine ⟨low, high, ?_, period.labelAtReset_eq recent isDate,
      period.chargeTtl_isSome_iff recent isDate⟩
    intro other
    exact period.keyAt_eq_iff other recent isDate
  · intro instant other _ _ same
    exact period.label_keyOfDate_injective same

/-- The first day of 2027 lies in the last ISO week of 2026. -/
theorem periods_partition_time_sample :
    (BudgetPeriod.weekly.keyAt 1798761600000000000).label = "2026-W53" ∧
      BudgetPeriod.weekly.labelAtReset (I64.clamp 1799020800) = "2026-W53" := by
  have label : (BudgetPeriod.weekly.keyAt 1798761600000000000).label =
      "2026-W53" := by
    decide
  have resets : (BudgetPeriod.weekly.keyAt 1798761600000000000).resetsAtUnix =
      1799020800 := by
    decide
  obtain ⟨_, _, _, sameLabel, _⟩ :=
    (periods_partition_time .weekly).1 1798761600000000000 (by decide)
      (by decide)
  rw [resets, label] at sameLabel
  exact ⟨label, sameLabel⟩

/-- Half a second before the epoch has the key of the day that starts with the
epoch; and a charge made in 1970 to a month of the year 2200 has no lifetime,
though the month has not ended. -/
theorem keyAt_before_epoch_chargeTtl_far_ahead :
    (∃ instant other : SystemTime, (0 : Int) ≤ instant ∧
      (BudgetPeriod.daily.keyAt instant).checkedEndDate.isSome = true ∧
        BudgetPeriod.daily.keyAt other = BudgetPeriod.daily.keyAt instant ∧
          other < (BudgetPeriod.daily.keyAt instant).startInstant) ∧
    ∃ instant now : SystemTime, (0 : Int) ≤ instant ∧
      (BudgetPeriod.monthly.keyAt instant).checkedEndDate.isSome = true ∧
        now < (BudgetPeriod.monthly.keyAt instant).endInstant +
          lateChargeGraceSecs * 1000000000 ∧
        BudgetPeriod.chargeTtl (BudgetPeriod.monthly.keyAt instant) now =
          none := by
  constructor
  · refine ⟨0, -500000000, ?_, ?_, ?_, ?_⟩ <;> decide
  · refine ⟨7258118400000000000, 0, ?_, ?_, ?_, ?_⟩ <;> decide

end Paigasus.Gateway
