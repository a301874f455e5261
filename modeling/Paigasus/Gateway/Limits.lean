import Paigasus.Foundation.Calendar
import Paigasus.Foundation.Uuid
import Paigasus.Gateway.SlidingWindow

/-!
# Limits of one request

The budget periods of the calendar, the limits resolved for a request, and the
refusal that is reported when several checks fail.  An instant outside the
range of the dates reads as the first or the last date.
-/

namespace Paigasus.Gateway

open Foundation Calendar

def maxTokensPerPeriod : Nat := 1000000000000

def maxTokensPerCharge : Nat := 1000000000

def lateChargeGraceSecs : Int := 86400

/-- The day of the epoch. -/
def epochDay : Int := 719162

namespace NaiveDate

def minDay : Int := -95746130

def maxDay : Int := 95745398

end NaiveDate

/-- A day from the first of January of year -262143 to the last of December of
year 262142. -/
structure NaiveDate where
  day : Int
  inRange : NaiveDate.minDay ≤ day ∧ day ≤ NaiveDate.maxDay
deriving DecidableEq

namespace NaiveDate

theorem range_years : minDay = newYear (-262143) ∧
    maxDay = newYear 262143 - 1 := by
  decide

def min : NaiveDate := ⟨minDay, by decide⟩

def max : NaiveDate := ⟨maxDay, by decide⟩

def ofDay? (day : Int) : Option NaiveDate :=
  if inRange : minDay ≤ day ∧ day ≤ maxDay then some ⟨day, inRange⟩ else none

def year (date : NaiveDate) : Int := yearOf date.day

def month (date : NaiveDate) : Nat := monthOfDay date.day

/-- The day of the month, from one. -/
def dayOfMonth (date : NaiveDate) : Int :=
  date.day - monthDay date.year date.month + 1

def fromYmdOpt (year : Int) (month : Nat) (day : Int) : Option NaiveDate :=
  if 1 ≤ month ∧ month ≤ 12 ∧ 1 ≤ day ∧
      monthDay year month + day ≤ monthDay year (month + 1) then
    ofDay? (monthDay year month + day - 1)
  else
    none

/-- The Monday of an ISO week. -/
def fromIsoywdOpt (year : Int) (week : Nat) : Option NaiveDate :=
  if 1 ≤ week ∧ week ≤ isoWeeks year then ofDay? (isoMonday year week)
  else none

def checkedAddDays (date : NaiveDate) (days : Nat) : Option NaiveDate :=
  ofDay? (date.day + days)

/-- The same day of the next month, or its last day. -/
def checkedAddMonth (date : NaiveDate) : Option NaiveDate :=
  let year := if date.month = 12 then date.year + 1 else date.year
  let month := if date.month = 12 then 1 else date.month + 1
  let length := monthDay year (month + 1) - monthDay year month
  fromYmdOpt year month (Min.min date.dayOfMonth length)

end NaiveDate

inductive BudgetPeriod where
  | daily
  | weekly
  | monthly
deriving DecidableEq

/-- One concrete period; a week carries the ISO year. -/
inductive PeriodKey where
  | day (date : NaiveDate)
  | week (year : Int) (number : Nat)
  | month (year : Int) (number : Nat)
deriving DecidableEq

/-- Whole seconds since the epoch, towards zero before it. -/
def unixSecs (now : SystemTime) : I64 :=
  if 0 ≤ now then I64.clamp (now / 1000000000)
  else I64.clamp (-(-now / 1000000000))

namespace BudgetPeriod

def dateAt (secs : I64) : NaiveDate :=
  match NaiveDate.ofDay? (secs.val / 86400 + epochDay) with
  | some date => date
  | none => if secs.val < 0 then .min else .max

def keyAtUnix (period : BudgetPeriod) (secs : I64) : PeriodKey :=
  let date := dateAt secs
  match period with
  | .daily => .day date
  | .weekly => .week (isoYear date.day) (isoWeek date.day)
  | .monthly => .month date.year date.month

/-- The period that holds the instant. -/
def keyAt (period : BudgetPeriod) (now : SystemTime) : PeriodKey :=
  period.keyAtUnix (unixSecs now)

end BudgetPeriod

namespace PeriodKey

def startDate (key : PeriodKey) : NaiveDate :=
  let start :=
    match key with
    | .day date => some date
    | .week year number => NaiveDate.fromIsoywdOpt year number
    | .month year number => NaiveDate.fromYmdOpt year number 1
  start.getD .min

def endDate (key : PeriodKey) : NaiveDate :=
  let stop :=
    match key with
    | .day _ => key.startDate.checkedAddDays 1
    | .week _ _ => key.startDate.checkedAddDays 7
    | .month _ _ => key.startDate.checkedAddMonth
  stop.getD .max

def resetsAtUnix (key : PeriodKey) : Int :=
  (key.endDate.day - epochDay) * 86400

end PeriodKey

/-- The seconds for which a charge made now keeps the period; `none` when the
period ended more than a day ago. -/
def BudgetPeriod.chargeTtl (key : PeriodKey) (now : SystemTime) : Option Nat :=
  let nowSecs := I64.clamp (now.toNat / 1000000000 : Nat)
  let ttl := (I64.clamp (key.resetsAtUnix + lateChargeGraceSecs)).saturatingSub
    nowSecs
  if ttl.val < 1 then none
  else if ttl.val < 2 ^ 32 then some ttl.val.toNat
  else none

structure Budget where
  tokens : NonZeroU64
  period : BudgetPeriod
deriving DecidableEq

/-- The limits of one request; an absent one does not limit. -/
structure LimitPolicy where
  principalRequestsPerMinute : Option NonZeroU64
  orgRequestsPerMinute : Option NonZeroU64
  budget : Option Budget
deriving DecidableEq

inductive FailedCheck where
  | principalRate (counts : RateCounts)
  | orgRate (counts : RateCounts)
  | budget (period : BudgetPeriod) (resetsAtUnix : Int)
deriving DecidableEq

def budgetRefusal (budget : Budget) (key : PeriodKey) : FailedCheck :=
  .budget budget.period key.resetsAtUnix

/-- The right to charge one admitted request. -/
structure LimitTicket where
  org : Uuid
  period : PeriodKey
deriving DecidableEq

inductive LimitDecision where
  | admitted (ticket : Option LimitTicket)
  | refused (failed : List FailedCheck)
deriving DecidableEq

inductive RefusalReason where
  | principalRate
  | orgRate
  | orgBudget
deriving DecidableEq

inductive LimitRefusal where
  | rateLimited (retryAfterSecs : Nat) (reason : RefusalReason)
  | budgetExhausted (period : BudgetPeriod) (resetsAtUnix : Int)
  | unscoped
deriving DecidableEq

namespace FailedCheck

def budget? : FailedCheck → Option (BudgetPeriod × Int)
  | .budget period resetsAtUnix => some (period, resetsAtUnix)
  | _ => none

/-- The wait of a failed rate check. -/
def waitSecs? : FailedCheck → Option Nat
  | .principalRate counts => some counts.retryAfterSecs
  | .orgRate counts => some counts.retryAfterSecs
  | .budget _ _ => none

def isPrincipalRate : FailedCheck → Bool
  | .principalRate _ => true
  | _ => false

end FailedCheck

/-- The budget first, then the principal's rate, then the organization's; the
wait is the longest one of the failed rate checks. -/
def chooseRefusal (failed : List FailedCheck) : Option LimitRefusal :=
  match failed.findSome? FailedCheck.budget? with
  | some (period, resetsAtUnix) => some (.budgetExhausted period resetsAtUnix)
  | none =>
      match (failed.filterMap FailedCheck.waitSecs?).max? with
      | none => none
      | some longest => some (.rateLimited (Max.max longest 1)
          (if failed.any FailedCheck.isPrincipalRate then .principalRate
            else .orgRate))

end Paigasus.Gateway
