import Paigasus.Core.DateTime

/-!
# Dates and times with leap seconds

A date and time that comes in over the wire is a second of the Unix time and a
number of nanoseconds in it.  A leap second is written as a second 59 whose
nanoseconds go on to two seconds; date arithmetic leaves it.
-/

namespace Paigasus.Core

open Foundation.Calendar

namespace UtcDateTime

def epochDay : Int := newYear 1970

def minSeconds : Int := (newYear (-262143) - epochDay) * 86400

def maxSeconds : Int := (newYear 262143 - epochDay) * 86400 - 1

end UtcDateTime

/-- `chrono::DateTime<Utc>`. -/
structure UtcDateTime where
  seconds : Int
  nanos : Nat
  secondsInRange : UtcDateTime.minSeconds ≤ seconds ∧
    seconds ≤ UtcDateTime.maxSeconds
  nanosInRange : nanos < 1000000000 ∨ seconds % 60 = 59 ∧ nanos < 2000000000
deriving DecidableEq

namespace UtcDateTime

/-- `DateTime::from_timestamp`. -/
def fromTimestamp? (seconds : Int) (nanos : Nat) : Option UtcDateTime :=
  if secondsInRange : minSeconds ≤ seconds ∧ seconds ≤ maxSeconds then
    if nanosInRange : nanos < 1000000000 ∨
        seconds % 60 = 59 ∧ nanos < 2000000000 then
      some ⟨seconds, nanos, secondsInRange, nanosInRange⟩
    else
      none
  else
    none

/-- The nanoseconds since the epoch. -/
def instant (time : UtcDateTime) : Int :=
  time.seconds * 1000000000 + time.nanos

def year (time : UtcDateTime) : Int :=
  yearOf (time.seconds / 86400 + epochDay)

/-- `-` with a number of days: from a leap second it goes back from the second
after it.  It panics outside of the range, here with `none`. -/
def subDays (time : UtcDateTime) (days : Nat) : Option UtcDateTime :=
  if days = 0 then
    some time
  else if time.nanos < 1000000000 then
    fromTimestamp? (time.seconds - days * 86400) time.nanos
  else
    fromTimestamp? (time.seconds + 1 - days * 86400)
      (time.nanos - 1000000000)

/-- `+` with a number of days: from a leap second it goes on from the second
that it is written as. -/
def addDays (time : UtcDateTime) (days : Nat) : Option UtcDateTime :=
  if days = 0 then
    some time
  else if time.nanos < 1000000000 then
    fromTimestamp? (time.seconds + days * 86400) time.nanos
  else
    fromTimestamp? (time.seconds + days * 86400) (time.nanos - 1000000000)

/-- The order of dates and times, which compares a leap second by the second
that it is written as. -/
def isBefore (earlier later : UtcDateTime) : Bool :=
  earlier.seconds < later.seconds ||
    earlier.seconds = later.seconds && earlier.nanos < later.nanos

/-- `Ord::max`. -/
def latest (first second : UtcDateTime) : UtcDateTime :=
  if second.isBefore first then first else second

theorem fromTimestamp?_isSome {seconds : Int} {nanos : Nat}
    (small : nanos < 1000000000) :
    (fromTimestamp? seconds nanos).isSome ↔
      minSeconds ≤ seconds ∧ seconds ≤ maxSeconds := by
  unfold fromTimestamp?
  split
  case isTrue inRange => simp [small, inRange]
  case isFalse outside => simp [outside]

theorem fromTimestamp?_eq {seconds : Int} {nanos : Nat} {time : UtcDateTime}
    (found : fromTimestamp? seconds nanos = some time) :
    time.seconds = seconds ∧ time.nanos = nanos := by
  unfold fromTimestamp? at found
  split at found
  · split at found
    · cases found
      exact ⟨rfl, rfl⟩
    · cases found
  · cases found

/-- The second at which a subtraction starts. -/
def leaving (time : UtcDateTime) : Int :=
  if time.nanos < 1000000000 then time.seconds else time.seconds + 1

/-- A number of days can be subtracted exactly where the range goes as far
back; above it nothing is lost. -/
theorem subDays_isSome {time : UtcDateTime} {days : Nat} (positive : 0 < days) :
    (time.subDays days).isSome ↔ minSeconds + days * 86400 ≤ time.leaving := by
  have nonzero : days ≠ 0 := by omega
  have inRange := time.secondsInRange
  unfold subDays leaving
  rw [if_neg nonzero]
  split
  case isTrue small =>
    rw [fromTimestamp?_isSome small]
    omega
  case isFalse leap =>
    have small : time.nanos - 1000000000 < 1000000000 := by
      have := time.nanosInRange
      omega
    rw [fromTimestamp?_isSome small]
    omega

theorem addDays_isSome {time : UtcDateTime} {days : Nat} :
    (time.addDays days).isSome ↔ time.seconds + days * 86400 ≤ maxSeconds := by
  have inRange := time.secondsInRange
  have nanosInRange := time.nanosInRange
  unfold addDays
  split
  case isTrue zero =>
    subst zero
    simpa using inRange.2
  case isFalse =>
    split
    case isTrue small =>
      rw [fromTimestamp?_isSome small]
      omega
    case isFalse leap =>
      have small : time.nanos - 1000000000 < 1000000000 := by omega
      rw [fromTimestamp?_isSome small]
      omega

/-- What is left after a subtraction is no leap second, and it is so many days
before. -/
theorem subDays_spec {time earlier : UtcDateTime} {days : Nat}
    (positive : 0 < days) (found : time.subDays days = some earlier) :
    earlier.nanos < 1000000000 ∧
      earlier.instant = time.instant - days * nanosPerDay := by
  have nonzero : days ≠ 0 := by omega
  have inRange := time.nanosInRange
  unfold subDays at found
  rw [if_neg nonzero] at found
  unfold instant nanosPerDay
  split at found
  case isTrue small =>
    obtain ⟨seconds, nanos⟩ := fromTimestamp?_eq found
    omega
  case isFalse leap =>
    obtain ⟨seconds, nanos⟩ := fromTimestamp?_eq found
    omega

/-- The later of two dates is not before one that is no leap second. -/
theorem instant_le_latest (first : UtcDateTime) {second : UtcDateTime}
    (small : second.nanos < 1000000000) :
    second.instant ≤ (latest first second).instant := by
  unfold latest
  split
  case isTrue before =>
    simp only [isBefore, Bool.or_eq_true, Bool.and_eq_true,
      decide_eq_true_eq] at before
    unfold instant
    omega
  case isFalse => exact le_refl _

/-- A date from the year -1 on is so many days after the first one. -/
theorem le_seconds_of_year {time : UtcDateTime} (recent : -1 ≤ time.year) :
    minSeconds + 36600 * 86400 ≤ time.seconds := by
  have reached := newYear_yearOf_le (time.seconds / 86400 + epochDay)
  have ordered := newYear_mono recent
  have starts : newYear (-262143) + 36600 ≤ newYear (-1) := by decide
  unfold year at ordered
  unfold minSeconds
  omega

end UtcDateTime

end Paigasus.Core
