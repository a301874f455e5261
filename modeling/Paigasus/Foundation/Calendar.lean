import Mathlib.Data.Int.Order.Basic
import Mathlib.Order.Monotone.Basic
import Mathlib.Tactic.Ring

/-!
# The proleptic Gregorian calendar

A date is the number of days since the first of January of year 1, a Monday.
Years and months are intervals of days; an ISO week runs from Monday to Sunday
and belongs to the year that contains its Thursday.
-/

namespace Foundation.Calendar

def isLeap (year : Int) : Bool :=
  year % 4 = 0 && (year % 100 ≠ 0 || year % 400 = 0)

/-- The first day of a year. -/
def newYear (year : Int) : Int :=
  365 * (year - 1) + (year - 1) / 4 - (year - 1) / 100 + (year - 1) / 400

def daysInYear (year : Int) : Int := if isLeap year then 366 else 365

theorem newYear_succ (year : Int) :
    newYear (year + 1) = newYear year + daysInYear year := by
  unfold newYear daysInYear isLeap
  simp only [Bool.and_eq_true, Bool.or_eq_true, decide_eq_true_eq]
  split <;> omega

theorem newYear_mono {earlier later : Int} (ordered : earlier ≤ later) :
    newYear earlier ≤ newYear later := by
  unfold newYear
  omega

/-- The year of a day: an estimate by the mean length of a year, corrected by
at most one. -/
def yearOf (day : Int) : Int :=
  let estimate := 400 * day / 146097 + 1
  if day < newYear estimate then estimate - 1
  else if newYear (estimate + 1) ≤ day then estimate + 1
  else estimate

theorem newYear_yearOf_le (day : Int) : newYear (yearOf day) ≤ day := by
  unfold yearOf
  dsimp only
  split
  case isTrue beyond =>
    unfold newYear
    omega
  case isFalse =>
    split
    case isTrue under => exact under
    case isFalse => omega

theorem lt_newYear_yearOf_succ (day : Int) :
    day < newYear (yearOf day + 1) := by
  unfold yearOf
  dsimp only
  split
  case isTrue beyond =>
    rw [Int.sub_add_cancel]
    exact beyond
  case isFalse =>
    split
    case isTrue under =>
      unfold newYear
      omega
    case isFalse => omega

/-- A year is determined by any of its days. -/
theorem yearOf_eq {year day : Int} (low : newYear year ≤ day)
    (high : day < newYear (year + 1)) : yearOf day = year := by
  have below := newYear_yearOf_le day
  have above := lt_newYear_yearOf_succ day
  by_contra different
  rcases lt_or_gt_of_ne different with earlier | later
  · have ordered := newYear_mono (show yearOf day + 1 ≤ year by omega)
    omega
  · have ordered := newYear_mono (show year + 1 ≤ yearOf day by omega)
    omega

/-- The day of the year on which a month starts, from zero; thirteen is the
start of the next year. -/
def monthStart (leap : Bool) (month : Nat) : Int :=
  let common : Int :=
    match month with
    | 1 => 0
    | 2 => 31
    | 3 => 59
    | 4 => 90
    | 5 => 120
    | 6 => 151
    | 7 => 181
    | 8 => 212
    | 9 => 243
    | 10 => 273
    | 11 => 304
    | 12 => 334
    | _ => 365
  if leap && 2 < month then common + 1 else common

/-- The first of `more` further months that ends after the day. -/
def monthFrom (leap : Bool) (ordinal : Int) (month : Nat) : Nat → Nat
  | 0 => month
  | more + 1 =>
      if ordinal < monthStart leap (month + 1) then month
      else monthFrom leap ordinal (month + 1) more

/-- The month of a day of the year. -/
def monthOf (leap : Bool) (ordinal : Int) : Nat := monthFrom leap ordinal 1 11

theorem monthFrom_spec {leap : Bool} {ordinal : Int} {month more : Nat}
    (low : monthStart leap month ≤ ordinal)
    (high : ordinal < monthStart leap (month + more + 1)) :
    month ≤ monthFrom leap ordinal month more ∧
      monthFrom leap ordinal month more ≤ month + more ∧
      monthStart leap (monthFrom leap ordinal month more) ≤ ordinal ∧
      ordinal < monthStart leap (monthFrom leap ordinal month more + 1) := by
  induction more generalizing month with
  | zero => exact ⟨le_rfl, le_rfl, low, high⟩
  | succ more ih =>
      unfold monthFrom
      split
      case isTrue ends => exact ⟨le_rfl, Nat.le_add_right _ _, low, ends⟩
      case isFalse goesOn =>
        have further : ordinal < monthStart leap (month + 1 + more + 1) := by
          have sameMonth : month + 1 + more + 1 = month + (more + 1) + 1 := by
            omega
          rw [sameMonth]
          exact high
        obtain ⟨least, most, start, stop⟩ := ih (by omega) further
        exact ⟨by omega, by omega, start, stop⟩

theorem monthOf_spec {leap : Bool} {ordinal : Int} (low : 0 ≤ ordinal)
    (high : ordinal < monthStart leap 13) :
    1 ≤ monthOf leap ordinal ∧ monthOf leap ordinal ≤ 12 ∧
      monthStart leap (monthOf leap ordinal) ≤ ordinal ∧
      ordinal < monthStart leap (monthOf leap ordinal + 1) := by
  apply monthFrom_spec _ high
  cases leap with
  | true => exact low
  | false => exact low

theorem monthStart_year (year : Int) :
    monthStart (isLeap year) 13 = daysInYear year := by
  unfold daysInYear
  cases isLeap year with
  | true => rfl
  | false => rfl

/-- The first day of a month; thirteen is the next January. -/
def monthDay (year : Int) (month : Nat) : Int :=
  newYear year + monthStart (isLeap year) month

def monthOfDay (day : Int) : Nat :=
  monthOf (isLeap (yearOf day)) (day - newYear (yearOf day))

/-- A day lies in its month. -/
theorem monthOfDay_spec (day : Int) :
    1 ≤ monthOfDay day ∧ monthOfDay day ≤ 12 ∧
      monthDay (yearOf day) (monthOfDay day) ≤ day ∧
      day < monthDay (yearOf day) (monthOfDay day + 1) := by
  have low := newYear_yearOf_le day
  have high := lt_newYear_yearOf_succ day
  rw [newYear_succ, ← monthStart_year] at high
  have fromZero : 0 ≤ day - newYear (yearOf day) := by omega
  have inYear : day - newYear (yearOf day) <
      monthStart (isLeap (yearOf day)) 13 := by omega
  obtain ⟨least, most, start, stop⟩ := monthOf_spec fromZero inYear
  unfold monthDay monthOfDay
  exact ⟨least, most, by omega, by omega⟩

theorem monthStart_mono (leap : Bool) {earlier later : Nat}
    (ordered : earlier ≤ later) (positive : 1 ≤ earlier)
    (inYear : later ≤ 13) : monthStart leap earlier ≤ monthStart leap later := by
  have table : ∀ leap : Bool, ∀ later : Fin 14, ∀ earlier : Fin 14,
      earlier ≤ later → 1 ≤ earlier.val →
        monthStart leap earlier.val ≤ monthStart leap later.val := by
    decide
  exact table leap ⟨later, by omega⟩ ⟨earlier, by omega⟩ ordered positive

/-- A month is determined by any of its days. -/
theorem month_eq {year day : Int} {month : Nat} (least : 1 ≤ month)
    (most : month ≤ 12) (low : monthDay year month ≤ day)
    (high : day < monthDay year (month + 1)) :
    yearOf day = year ∧ monthOfDay day = month := by
  have first : monthStart (isLeap year) 1 = 0 := by
    cases isLeap year with
    | true => rfl
    | false => rfl
  have fromStart := monthStart_mono (isLeap year) least le_rfl (by omega)
  have toEnd := monthStart_mono (isLeap year) (show month + 1 ≤ 13 by omega)
    (by omega) le_rfl
  rw [monthStart_year] at toEnd
  unfold monthDay at low high
  have sameYear : yearOf day = year := by
    apply yearOf_eq
    · omega
    · rw [newYear_succ]
      omega
  refine ⟨sameYear, ?_⟩
  obtain ⟨otherLeast, otherMost, otherLow, otherHigh⟩ := monthOfDay_spec day
  rw [sameYear] at otherLow otherHigh
  unfold monthDay at otherLow otherHigh
  by_contra different
  rcases lt_or_gt_of_ne different with earlier | later
  · have ordered := monthStart_mono (isLeap year)
      (show monthOfDay day + 1 ≤ month by omega) (by omega) (by omega)
    omega
  · have ordered := monthStart_mono (isLeap year)
      (show month + 1 ≤ monthOfDay day by omega) (by omega) (by omega)
    omega

/-- Months counted from January of year 0. -/
def monthIndex (year : Int) (month : Nat) : Int := 12 * year + month - 1

/-- The first day of the month with the index. -/
def firstDay (index : Int) : Int :=
  monthDay (index / 12) ((index % 12).toNat + 1)

theorem firstDay_monthIndex {year : Int} {month : Nat} (least : 1 ≤ month)
    (most : month ≤ 12) : firstDay (monthIndex year month) =
      monthDay year month := by
  have years : monthIndex year month / 12 = year := by
    unfold monthIndex
    omega
  have months : (monthIndex year month % 12).toNat + 1 = month := by
    unfold monthIndex
    omega
  rw [firstDay, years, months]

theorem monthStart_lt_succ (leap : Bool) {month : Nat} (least : 1 ≤ month)
    (most : month ≤ 12) : monthStart leap month < monthStart leap (month + 1) := by
  have table : ∀ leap : Bool, ∀ month : Fin 13, 1 ≤ month.val →
      monthStart leap month.val < monthStart leap (month.val + 1) := by
    decide
  exact table leap ⟨month, by omega⟩ least

/-- The next month starts where this one ends, over the end of the year too. -/
theorem firstDay_succ {year : Int} {month : Nat} (least : 1 ≤ month)
    (most : month ≤ 12) :
    firstDay (monthIndex year month + 1) = monthDay year (month + 1) := by
  by_cases isLast : month = 12
  · subst isLast
    have nextYear : monthIndex year 12 + 1 = monthIndex (year + 1) 1 := by
      unfold monthIndex
      omega
    rw [nextYear, firstDay_monthIndex (by omega) (by omega), monthDay, monthDay,
      monthStart_year, newYear_succ]
    cases isLeap (year + 1) with
    | true => exact Int.add_zero _
    | false => exact Int.add_zero _
  · have nextMonth : monthIndex year month + 1 = monthIndex year (month + 1) := by
      unfold monthIndex
      omega
    rw [nextMonth, firstDay_monthIndex (by omega) (by omega)]

theorem monthIndex_surjective (index : Int) : ∃ year month,
    1 ≤ month ∧ month ≤ 12 ∧ monthIndex year month = index := by
  refine ⟨index / 12, (index % 12).toNat + 1, by omega, by omega, ?_⟩
  unfold monthIndex
  omega

theorem firstDay_lt {earlier later : Int} (before : earlier < later) :
    firstDay earlier < firstDay later := by
  refine strictMono_int_of_lt_succ ?_ before
  intro index
  obtain ⟨year, month, least, most, rfl⟩ := monthIndex_surjective index
  rw [firstDay_succ least most, firstDay_monthIndex least most]
  have later := monthStart_lt_succ (isLeap year) least most
  unfold monthDay
  omega

theorem firstDay_le {earlier later : Int} (ordered : earlier ≤ later) :
    firstDay earlier ≤ firstDay later := by
  rcases ordered.eq_or_lt with same | before
  · rw [same]
  · exact (firstDay_lt before).le

/-- The Monday of the week of a day. -/
def mondayOf (day : Int) : Int := day - day % 7

/-- The year an ISO week belongs to. -/
def isoYear (day : Int) : Int := yearOf (mondayOf day + 3)

def isoWeek (day : Int) : Nat :=
  ((mondayOf day + 3 - newYear (isoYear day)) / 7 + 1).toNat

/-- The Monday of the first ISO week of a year, the week of the fourth of
January. -/
def isoNewYear (year : Int) : Int := mondayOf (newYear year + 3)

def isoMonday (year : Int) (week : Nat) : Int :=
  isoNewYear year + 7 * ((week : Int) - 1)

def isoWeeks (year : Int) : Nat :=
  ((isoNewYear (year + 1) - isoNewYear year) / 7).toNat

/-- The year and the number of a week determine its Monday. -/
theorem isoMonday_isoWeek (day : Int) :
    isoMonday (isoYear day) (isoWeek day) = mondayOf day := by
  have low := newYear_yearOf_le (mondayOf day + 3)
  have monday : mondayOf day % 7 = 0 := by
    unfold mondayOf
    omega
  unfold isoMonday isoNewYear isoWeek isoYear
  unfold mondayOf at *
  omega

theorem isoWeek_spec (day : Int) :
    1 ≤ isoWeek day ∧ isoWeek day ≤ isoWeeks (isoYear day) := by
  have low := newYear_yearOf_le (mondayOf day + 3)
  have high := lt_newYear_yearOf_succ (mondayOf day + 3)
  have monday : mondayOf day % 7 = 0 := by
    unfold mondayOf
    omega
  unfold isoWeek isoWeeks isoNewYear isoYear
  unfold mondayOf at *
  omega

end Foundation.Calendar
