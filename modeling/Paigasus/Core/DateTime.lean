import Paigasus.Foundation.Calendar

/-!
# Instants

An instant is the number of nanoseconds since the start of the day zero of the
calendar, the first of January of year 1.  A date and time is an instant within
the range of the source's library, whose years run from -262143 to 262142.
-/

namespace Paigasus.Core

open Foundation.Calendar

def nanosPerDay : Int := 86400000000000

/-- The first instant of a day. -/
def startOfDay (day : Int) : Int := day * nanosPerDay

def dayOf (instant : Int) : Int := instant / nanosPerDay

theorem dayOf_spec (instant : Int) :
    startOfDay (dayOf instant) ≤ instant ∧
      instant < startOfDay (dayOf instant + 1) := by
  unfold startOfDay dayOf nanosPerDay
  omega

theorem startOfDay_le {earlier later : Int} (ordered : earlier ≤ later) :
    startOfDay earlier ≤ startOfDay later := by
  unfold startOfDay nanosPerDay
  omega

namespace DateTime

def minUtc : Int := startOfDay (newYear (-262143))

def maxUtc : Int := startOfDay (newYear 262143) - 1

end DateTime

/-- `chrono::DateTime<Utc>`. -/
structure DateTime where
  nanos : Int
  inRange : DateTime.minUtc ≤ nanos ∧ nanos ≤ DateTime.maxUtc
deriving DecidableEq

namespace DateTime

def year (now : DateTime) : Int := yearOf (dayOf now.nanos)

def month (now : DateTime) : Nat := monthOfDay (dayOf now.nanos)

theorem month_spec (now : DateTime) : 1 ≤ now.month ∧ now.month ≤ 12 :=
  ⟨(monthOfDay_spec _).1, (monthOfDay_spec _).2.1⟩

/-- The years of the range. -/
theorem year_spec (now : DateTime) :
    -262143 ≤ now.year ∧ now.year ≤ 262142 := by
  obtain ⟨low, high⟩ := dayOf_spec now.nanos
  obtain ⟨least, most⟩ := now.inRange
  have fromMin : newYear (-262143) ≤ dayOf now.nanos := by
    unfold minUtc startOfDay nanosPerDay at least
    unfold dayOf nanosPerDay
    omega
  have toMax : dayOf now.nanos < newYear 262143 := by
    unfold maxUtc startOfDay nanosPerDay at most
    unfold dayOf nanosPerDay
    omega
  have starts := newYear_yearOf_le (dayOf now.nanos)
  have ends := lt_newYear_yearOf_succ (dayOf now.nanos)
  unfold year
  constructor
  · by_contra earlier
    have ordered := newYear_mono
      (show yearOf (dayOf now.nanos) + 1 ≤ -262143 by omega)
    omega
  · by_contra later
    have ordered := newYear_mono
      (show (262143 : Int) ≤ yearOf (dayOf now.nanos) by omega)
    omega

end DateTime

end Paigasus.Core
