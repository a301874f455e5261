import Paigasus.Gateway.AdmissionScript

/-!
# The shared limit store

The counts of all replicas in one Redis.  A check runs the admission script and
reads a decision from the integers of its reply; a charge raises the tokens of
its period and renews their lifetime.  Where the keys hold the decimal texts of
counts, the script decides as the rules of the domain do.
-/

namespace Paigasus.Gateway

open Foundation

inductive LimitStoreError where
  /-- The server's answer to a script that fails. -/
  | server (error : ScriptError)
  | decode (detail : String)
deriving DecidableEq

namespace AdmissionScript

/-- A number as an integer of the reply; one that does not fit reads as the
least integer. -/
def wireInteger (number : Double) : I64 :=
  (number.toInt?.bind I64.ofInt?).getD ⟨-(2 ^ 63), by decide⟩

def flag (passed : Bool) : I64 := if passed then 1 else 0

/-- The nine integers of a reply. -/
def Reply.wire (reply : Reply) : List I64 :=
  [flag reply.admitted, flag reply.principal.ok,
    wireInteger reply.principal.previous, wireInteger reply.principal.current,
    flag reply.org.ok, wireInteger reply.org.previous,
    wireInteger reply.org.current, flag reply.budgetOk,
    wireInteger reply.budgetUsed]

end AdmissionScript

namespace RedisLimitStore

def nonNegative (value : I64) : Except LimitStoreError Nat :=
  if 0 ≤ value.val then .ok value.val.toNat
  else .error (.decode
    ("the admission script returned a negative count " ++ toString value.val))

/-- The failed check of one rate, if its limit is set and refuses. -/
def rateFailure (passed : I64) (limit : Option NonZeroU64)
    (previous current : I64) (here : WindowIndex)
    (report : RateCounts → FailedCheck) :
    Except LimitStoreError (List FailedCheck) :=
  match limit with
  | none => .ok []
  | some limit =>
      if passed.val = 0 then do
        let previous ← nonNegative previous
        let current ← nonNegative current
        .ok [report ⟨previous, current, here.elapsedMs, limit.val⟩]
      else
        .ok []

def budgetFailure (passed : I64)
    (budget : Option (Budget × Uuid × PeriodKey)) : List FailedCheck :=
  match budget with
  | none => []
  | some (budget, _, key) =>
      if passed.val = 0 then [budgetRefusal budget key] else []

def decisionFromReply (reply : List I64) (here : WindowIndex)
    (principalLimit orgLimit : Option NonZeroU64)
    (budget : Option (Budget × Uuid × PeriodKey)) :
    Except LimitStoreError LimitDecision :=
  match reply with
  | [admitted, pOk, pPrev, pCur, oOk, oPrev, oCur, bOk, _] =>
      if admitted.val = 1 then
        .ok (.admitted (budget.map fun (_, org, period) => ⟨org, period⟩))
      else do
        let principal ← rateFailure pOk principalLimit pPrev pCur here
          .principalRate
        let org ← rateFailure oOk orgLimit oPrev oCur here .orgRate
        .ok (.refused (principal ++ org ++ budgetFailure bOk budget))
  | _ => .error (.decode ("the admission script returned " ++
      toString reply.length ++ " values, not 9"))

def checkAndAdmit (database : Redis) (principal : String) (org : Option Uuid)
    (policy : LimitPolicy) (now : SystemTime) :
    Except LimitStoreError LimitDecision × Redis :=
  let run := AdmissionScript.admission database (unixMs now)
    (admissionKeys principal org policy now) (admissionArgs org policy now)
  match run.result with
  | .error error => (.error (.server error), run.database)
  | .ok reply =>
      (decisionFromReply reply.wire (WindowIndex.atInstant now)
        policy.principalRequestsPerMinute
        (org.bind fun _ => policy.orgRequestsPerMinute)
        (MemoryLimitStore.appliedBudget policy org now), run.database)

/-- The charge as its task applies it. -/
def applyCharge (database : Redis) (ticket : LimitTicket) (tokens : Nat)
    (now : SystemTime) : Redis :=
  let tokens := min tokens maxTokensPerCharge
  if tokens = 0 then
    database
  else
    match BudgetPeriod.chargeTtl ticket.period now with
    | none => database
    | some ttl => database.incrByExpire (unixMs now)
        (budgetKey ticket.org ticket.period) tokens ttl

end RedisLimitStore

/-! ## The script on decimal counts -/

namespace AdmissionScript

theorem count_of_counts {database : Redis} {now : Int} {key : String}
    {value : Nat} (counts : database.Counts now key value)
    (bounded : value < 2 ^ 64) :
    count database now key = .ok (.ofInt value) := by
  unfold count
  rcases counts with found | ⟨missing, rfl⟩
  · rw [found]
    dsimp only
    rw [Lua.tonumber_toString]
    dsimp only
    rw [if_pos (Double.eq_floor_ofInt bounded)]
  · rw [missing]
    rfl

theorem argument_toString (value : Nat) :
    argument (toString value) = .ok (.ofInt value) :=
  argument_eq_ok.mpr (Lua.tonumber_toString value)

theorem small_of_le {value : Nat} (bounded : value ≤ 2 ^ 52) :
    Double.Small (value : Int) := by
  unfold Double.Small Double.precision
  omega

theorem mul_natCast {left right : Nat} (leftSmall : left ≤ 2 ^ 52)
    (rightSmall : right ≤ 2 ^ 52) (small : left * right ≤ 2 ^ 52) :
    (Double.ofInt left).mul (.ofInt right) = .ofInt (left * right : Nat) := by
  have product := small_of_le small
  rw [Nat.cast_mul] at product ⊢
  exact Double.mul_ofInt (small_of_le leftSmall) (small_of_le rightSmall)
    product

theorem add_natCast {left right : Nat} (leftSmall : left ≤ 2 ^ 52)
    (rightSmall : right ≤ 2 ^ 52) :
    (Double.ofInt left).add (.ofInt right) = .ofInt (left + right : Nat) := by
  rw [Nat.cast_add]
  exact Double.add_ofInt (small_of_le leftSmall) (small_of_le rightSmall)

/-- In the window the script's clamp changes nothing. -/
theorem clamp_ofInt {elapsed : Nat} (inWindow : elapsed < rateWindowMs) :
    clamp (.ofInt elapsed) = .ofInt elapsed := by
  unfold rateWindowMs at inWindow
  have elapsedSmall : Double.Small (elapsed : Int) := small_of_le (by omega)
  have lastSmall : Double.Small 59999 := by
    unfold Double.Small Double.precision
    decide
  apply if_neg
  rw [Double.lt, Double.le_ofInt elapsedSmall lastSmall,
    decide_eq_true (by omega), Bool.not_true, Bool.and_false]
  exact Bool.false_ne_true

/-- The numbers of Lua are exact here, so the script decides as the domain
does. -/
theorem admits_ofInt {previous current elapsed limit : Nat}
    (previousSmall : previous ≤ maxRequestsPerMinute)
    (currentSmall : current ≤ maxRequestsPerMinute)
    (limitSmall : limit ≤ maxRequestsPerMinute)
    (inWindow : elapsed < rateWindowMs) :
    admits (.ofInt previous) (.ofInt current) (.ofInt elapsed)
        (.ofInt limit) =
      Gateway.admits previous current elapsed limit := by
  have isWindow : rateWindowMs = 60000 := rfl
  have window : Double.ofInt 60000 = .ofInt rateWindowMs :=
    congrArg Double.ofInt (congrArg Nat.cast isWindow).symm
  unfold maxRequestsPerMinute at *
  have weightOf {count weight : Nat} (small : count ≤ 1000000000)
      (part : weight ≤ rateWindowMs) : count * weight ≤ 1000000000 * 60000 :=
    Nat.mul_le_mul small (by omega)
  have previousWeight := @weightOf previous (rateWindowMs - elapsed)
    previousSmall (by omega)
  have currentWeight := weightOf currentSmall (Nat.le_refl rateWindowMs)
  have limitWeight := weightOf limitSmall (Nat.le_refl rateWindowMs)
  have fits : limit * rateWindowMs ≤ U64.maxValue := by
    unfold U64.maxValue
    omega
  have remaining : (Double.ofInt rateWindowMs).sub (.ofInt elapsed) =
      .ofInt (rateWindowMs - elapsed : Nat) := by
    rw [Nat.cast_sub (Nat.le_of_lt inWindow)]
    exact Double.sub_ofInt (small_of_le (by omega)) (small_of_le (by omega))
  unfold admits
  rw [window, remaining, mul_natCast (by omega) (by omega) (by omega),
    mul_natCast (by omega) (by omega) (by omega),
    add_natCast (by omega) (by omega), add_natCast (by omega) (by omega),
    mul_natCast (by omega) (by omega) (by omega),
    Double.le_ofInt (small_of_le (by omega)) (small_of_le (by omega)),
    Bool.eq_iff_iff, decide_eq_true_iff, admits_iff inWindow fits]
  exact Int.ofNat_le

/-- The check of a rate whose limit and counts are known. -/
def rateOf (limit : Option NonZeroU64) (counts : NonZeroU64 → RateCounts) :
    RateCheck :=
  match limit with
  | none => ⟨true, .ofInt 0, .ofInt 0⟩
  | some limit => ⟨(counts limit).admits, .ofInt (counts limit).previous,
      .ofInt (counts limit).current⟩

theorem limitArg_ne (limit : NonZeroU64) :
    RedisLimitStore.limitArg (some limit) ≠ "" := by
  intro empty
  have digits := congrArg String.toList empty
  rw [RedisLimitStore.limitArg, Option.map_some, Option.getD_some,
    toString_toList] at digits
  exact Nat.toDigits_ne_nil digits

variable {database : Redis} {now : Int}

/-- The script's check of a rate, where the keys hold its counts. -/
theorem rate_of_counts {currentKey previousKey : String} {elapsed : Nat}
    (limit : Option NonZeroU64) {counts : NonZeroU64 → RateCounts}
    (inWindow : elapsed < rateWindowMs)
    (within : ∀ bound ∈ limit, bound.val ≤ maxRequestsPerMinute)
    (current : ∀ bound, database.Counts now currentKey (counts bound).current)
    (previous : ∀ bound,
      database.Counts now previousKey (counts bound).previous)
    (currentSmall : ∀ bound, (counts bound).current ≤ maxRequestsPerMinute)
    (previousSmall : ∀ bound, (counts bound).previous ≤ maxRequestsPerMinute)
    (same : ∀ bound, (counts bound).elapsedMs = elapsed ∧
      (counts bound).limit = bound.val) :
    rate database now (clamp (.ofInt elapsed)) currentKey previousKey
        (RedisLimitStore.limitArg limit) =
      .ok (rateOf limit counts) := by
  have bounded {value : Nat} (small : value ≤ maxRequestsPerMinute) :
      value < 2 ^ 64 := by
    unfold maxRequestsPerMinute at small
    omega
  unfold rate
  cases limit with
  | none => rfl
  | some bound =>
      have isLimit : argument (RedisLimitStore.limitArg (some bound)) =
          .ok (.ofInt bound.val) := argument_toString bound.val
      rw [if_neg (limitArg_ne bound),
        count_of_counts (current bound) (bounded (currentSmall bound)),
        count_of_counts (previous bound) (bounded (previousSmall bound)),
        isLimit, clamp_ofInt inWindow]
      have decides := admits_ofInt (previousSmall bound) (currentSmall bound)
        (within bound rfl) inWindow
      have admitted : (counts bound).admits = admits
          (.ofInt (counts bound).previous) (.ofInt (counts bound).current)
          (.ofInt elapsed) (.ofInt bound.val) := by
        rw [decides, RateCounts.admits, (same bound).1, (same bound).2]
      unfold rateOf
      dsimp only
      rw [admitted]
      rfl

/-- The check of a budget whose used tokens are known. -/
def budgetOf (limit : Option NonZeroU64) (used : Nat) : Bool × Double :=
  match limit with
  | none => (true, .ofInt 0)
  | some limit => (used < limit.val, .ofInt used)

theorem budget_of_counts {key : String} {used : Nat}
    (limit : Option NonZeroU64) (bounded : used < 2 ^ 64)
    (counted : ∀ bound ∈ limit, bound.val ≤ maxTokensPerPeriod ∧
      database.Counts now key used) :
    budget database now key (RedisLimitStore.limitArg limit) =
      .ok (budgetOf limit used) := by
  unfold budget
  cases limit with
  | none => rfl
  | some bound =>
      obtain ⟨within, counts⟩ := counted bound rfl
      have isLimit : argument (RedisLimitStore.limitArg (some bound)) =
          .ok (.ofInt bound.val) := argument_toString bound.val
      have small : bound.val < 2 ^ 52 := by
        unfold maxTokensPerPeriod at within
        omega
      have decides : (!(Double.ofInt bound.val).le (.ofInt used)) =
          decide (used < bound.val) := by
        rw [Double.le_ofInt_of_small small bounded, ← decide_not]
        simp only [Nat.not_le]
      rw [if_neg (limitArg_ne bound), count_of_counts counts bounded, isLimit]
      unfold budgetOf
      dsimp only
      rw [← decides]
      rfl

theorem lifetime {now : Int} (early : now < 2 ^ 62) :
    (Lua.tonumber (toString rateKeyTtlSecs)).bind (expireSecs? now) =
      some 180 := by
  have small : Double.Small ((180 : Nat) : Int) := small_of_le (by decide)
  have whole : (Double.ofInt (180 : Nat)).toInt? = some 180 :=
    Double.toInt?_ofInt small
  have lasts : now + 1000 * 180 < 2 ^ 63 := by omega
  have isTtl : rateKeyTtlSecs = 180 := rfl
  rw [isTtl, Lua.tonumber_toString, Option.bind_some, expireSecs?, whole,
    Option.filter_some, decide_eq_true lasts]
  rfl

/-- An accepted count: the key counts one more and is renewed. -/
theorem countLimited_of_counts {database : Redis} {now : Int} {key : String}
    {value : Nat} (limit : NonZeroU64) (early : now < 2 ^ 62)
    (small : value + 1 < 2 ^ 63) (counts : database.Counts now key value) :
    ∃ after writes,
      countLimited now (Lua.tonumber (toString rateKeyTtlSecs))
          (RedisLimitStore.limitArg (some limit)) key database =
        (after, writes, none) ∧
      after.lookup key =
        some ⟨toString (value + 1), some (now + 180000)⟩ ∧
      ∀ other, other ≠ key → after.lookup other = database.lookup other := by
  obtain ⟨counted, expiresAt, accepted, found⟩ := counts.incrBy small
  refine ⟨counted.expire now key 180, [.incr key, .expire key 180], ?_,
    Redis.lookup_expire (by decide) found, ?_⟩
  · unfold countLimited countRequest
    rw [if_neg (limitArg_ne limit), Redis.incr_eq_incrBy, accepted]
    dsimp only
    rw [lifetime early]
  · intro other distinct
    rw [Redis.lookup_expire_of_ne distinct,
      Redis.lookup_incrBy_of_ne distinct accepted]

theorem wireInteger_ofInt {value : Nat} (small : value ≤ 2 ^ 52) :
    (wireInteger (.ofInt value)).val = value := by
  have fits : I64.ofInt? (value : Int) = some ⟨value, by omega⟩ :=
    I64.ofInt?_eq_some.mpr rfl
  unfold wireInteger
  rw [Double.toInt?_ofInt (small_of_le small), Option.bind_some, fits]
  rfl

end AdmissionScript

namespace RedisLimitStore

open AdmissionScript

theorem flag_eq_zero (passed : Bool) : (flag passed).val = 0 ↔ passed = false := by
  cases passed <;> decide

theorem flag_eq_one (passed : Bool) : (flag passed).val = 1 ↔ passed = true := by
  cases passed <;> decide

theorem nonNegative_wireInteger {value : Nat}
    (small : value ≤ maxRequestsPerMinute) :
    nonNegative (wireInteger (.ofInt value)) = .ok value := by
  have isValue : (wireInteger (.ofInt value)).val = value := by
    apply wireInteger_ofInt
    unfold maxRequestsPerMinute at small
    omega
  unfold nonNegative
  rw [isValue, if_pos (Int.natCast_nonneg _), Int.toNat_natCast]

theorem failedRate_isEmpty (window : SlidingWindow)
    (limit : Option NonZeroU64) (now : SystemTime)
    (report : RateCounts → FailedCheck) :
    (MemoryLimitStore.failedRate window limit now report).isEmpty =
      (rateOf limit (window.counts now)).ok := by
  rw [MemoryLimitStore.failedRate_of_counts]
  generalize window.counts now = counts
  unfold rateOf
  cases limit with
  | none => rfl
  | some bound =>
      dsimp only
      cases (counts bound).admits with
      | true => rfl
      | false => rfl

theorem rateFailure_of_counts {counts : RateCounts} {limit : NonZeroU64}
    {here : WindowIndex} (report : RateCounts → FailedCheck) (passed : Bool)
    (currentSmall : counts.current ≤ maxRequestsPerMinute)
    (previousSmall : counts.previous ≤ maxRequestsPerMinute)
    (elapsed : counts.elapsedMs = here.elapsedMs)
    (isLimit : counts.limit = limit.val) :
    rateFailure (flag passed) (some limit)
        (wireInteger (.ofInt counts.previous))
        (wireInteger (.ofInt counts.current)) here report =
      .ok (if passed then [] else [report counts]) := by
  have previous := nonNegative_wireInteger previousSmall
  have current := nonNegative_wireInteger currentSmall
  generalize wireInteger (.ofInt counts.previous) = wirePrevious at *
  generalize wireInteger (.ofInt counts.current) = wireCurrent at *
  unfold rateFailure
  dsimp only
  cases passed with
  | true => rfl
  | false =>
      rw [if_pos ((flag_eq_zero false).mpr rfl), previous, current, ← elapsed,
        ← isLimit]
      rfl

/-- A failed rate is read from the reply as the domain reports it. -/
theorem rateFailure_rateOf {window : SlidingWindow} {now : SystemTime}
    (limit : Option NonZeroU64) (report : RateCounts → FailedCheck)
    (currentSmall : ∀ bound,
      (window.counts now bound).current ≤ maxRequestsPerMinute)
    (previousSmall : ∀ bound,
      (window.counts now bound).previous ≤ maxRequestsPerMinute)
    (elapsed : ∀ bound, (window.counts now bound).elapsedMs =
      (WindowIndex.atInstant now).elapsedMs) :
    rateFailure (flag (rateOf limit (window.counts now)).ok) limit
        (wireInteger (rateOf limit (window.counts now)).previous)
        (wireInteger (rateOf limit (window.counts now)).current)
        (WindowIndex.atInstant now) report =
      .ok (MemoryLimitStore.failedRate window limit now report) := by
  have isLimit := SlidingWindow.counts_limit window now
  rw [MemoryLimitStore.failedRate_of_counts]
  generalize window.counts now = counts at *
  unfold rateOf
  cases limit with
  | none => rfl
  | some bound =>
      dsimp only
      exact rateFailure_of_counts report (counts bound).admits
        (currentSmall bound) (previousSmall bound) (elapsed bound)
        (isLimit bound)

theorem budgetFailure_budgetOf (budget : Option (Budget × Uuid × PeriodKey))
    (used : Nat) :
    budgetFailure (flag (budgetOf (budget.map fun (budget, _) => budget.tokens)
        used).1) budget =
      match budget with
      | none => []
      | some (budget, _, key) =>
          if budget.tokens.val ≤ used then [budgetRefusal budget key] else [] := by
  unfold budgetFailure
  cases budget with
  | none => rfl
  | some applied =>
      obtain ⟨budget, id, key⟩ := applied
      unfold budgetOf
      simp only [Option.map_some, flag_eq_zero, decide_eq_false_iff_not,
        Nat.not_lt]

/-! ## The keys tell their owners and windows apart -/

theorem principalRateKey_inj {principal other : String} {window later : Nat}
    (same : principalRateKey principal window = principalRateKey other later) :
    principal = other ∧ window = later := by
  have colon : ":".toList = [':'] := rfl
  have texts := congrArg String.toList same
  simp only [principalRateKey, String.toList_append, colon, List.append_assoc,
    List.append_cancel_left_eq, List.singleton_append] at texts
  obtain ⟨owners, windows⟩ := last_field_eq_of_append_eq
    (not_mem_toString (by decide) window) (not_mem_toString (by decide) later)
    texts
  exact ⟨String.toList_inj.mp owners, toString_inj (String.toList_inj.mp windows)⟩

theorem colon_not_mem_hyphenated (id : Uuid) : ':' ∉ id.hyphenated :=
  Uuid.not_mem_hyphenated (by decide) (by decide) id

theorem orgRateKey_inj {org other : Uuid} {window later : Nat}
    (same : orgRateKey org window = orgRateKey other later) :
    org = other ∧ window = later := by
  have colon : ":".toList = [':'] := rfl
  have texts := congrArg String.toList same
  simp only [orgRateKey, String.toList_append, colon, List.append_assoc,
    List.append_cancel_left_eq, List.singleton_append, String.toList_ofList]
    at texts
  obtain ⟨owners, windows⟩ := field_eq_of_append_eq
    (colon_not_mem_hyphenated org) (colon_not_mem_hyphenated other) texts
  exact ⟨Uuid.hyphenated_injective owners,
    toString_inj (String.toList_inj.mp windows)⟩

theorem label_inj {period other : PeriodKey}
    (same : periodKind period ++ period.label =
      periodKind other ++ other.label) : period = other := by
  have texts := congrArg String.toList same
  rw [String.toList_append, String.toList_append] at texts
  have daily : "d".toList = ['d'] := rfl
  have weekly : "w".toList = ['w'] := rfl
  have monthly : "m".toList = ['m'] := rfl
  cases period <;> cases other <;>
    simp only [periodKind, daily, weekly, monthly, List.singleton_append,
      List.cons.injEq, Char.reduceEq, false_and, true_and,
      String.toList_inj] at texts
  case day.day date other =>
    exact congrArg PeriodKey.day (BudgetPeriod.day_label_injective texts)
  case week.week =>
    obtain ⟨years, numbers⟩ := BudgetPeriod.week_label_injective texts
    exact congrArg₂ PeriodKey.week years numbers
  case month.month =>
    obtain ⟨years, numbers⟩ := BudgetPeriod.month_label_injective texts
    exact congrArg₂ PeriodKey.month years numbers

theorem budgetKey_inj {org other : Uuid} {period otherPeriod : PeriodKey}
    (same : budgetKey org period = budgetKey other otherPeriod) :
    org = other ∧ period = otherPeriod := by
  have colon : ":".toList = [':'] := rfl
  have texts := congrArg String.toList same
  simp only [budgetKey, String.toList_append, colon, List.append_assoc,
    List.append_cancel_left_eq, List.singleton_append, String.toList_ofList]
    at texts
  obtain ⟨owners, periods⟩ := field_eq_of_append_eq
    (colon_not_mem_hyphenated org) (colon_not_mem_hyphenated other) texts
  refine ⟨Uuid.hyphenated_injective owners, label_inj ?_⟩
  apply String.toList_inj.mp
  rw [String.toList_append, String.toList_append]
  exact periods

theorem principalRateKey_ne_orgRateKey (principal : String) (org : Uuid)
    (window later : Nat) :
    principalRateKey principal window ≠ orgRateKey org later :=
  principalRateKey_ne principal (some org) window later

/-- A rate is counted under no budget's key. -/
theorem budgetKey_ne (org : Uuid) (period : PeriodKey) :
    (∀ principal window, budgetKey org period ≠
        principalRateKey principal window) ∧
      ∀ other window, budgetKey org period ≠ orgRateKey other window := by
  have rates : "rate:p:".toList = ['r', 'a', 't', 'e', ':', 'p', ':'] := rfl
  have orgs : "rate:o:".toList = ['r', 'a', 't', 'e', ':', 'o', ':'] := rfl
  have budgets : "budget:".toList =
      ['b', 'u', 'd', 'g', 'e', 't', ':'] := rfl
  constructor
  · intro principal window same
    have texts := congrArg String.toList same
    simp [budgetKey, principalRateKey, rates, budgets] at texts
  · intro other window same
    have texts := congrArg String.toList same
    simp [budgetKey, orgRateKey, orgs, budgets] at texts

end RedisLimitStore

end Paigasus.Gateway
