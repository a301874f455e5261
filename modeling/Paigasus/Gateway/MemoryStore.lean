import Paigasus.Foundation.Table
import Paigasus.Gateway.RetryAfter

/-!
# The in-process limit store

One table of principals and one of organizations.  A request is checked in
every dimension first and then committed in all of them; every 1024th check
also sweeps out the entries that are idle.  The reported wait of a rate refusal
is exact as long as the sweep drops nothing that still counts.
-/

namespace Paigasus.Gateway

open Foundation

def sweepEvery : Nat := 1024

/-- Two rate windows, in nanoseconds. -/
def rateIdle : Nat := 120000000000

structure OrgState where
  window : SlidingWindow
  used : Table PeriodKey Nat
  lastTouch : SystemTime

def OrgState.new (now : SystemTime) : OrgState := ⟨.default, ∅, now⟩

structure MemoryLimitStore where
  principals : Table String (SlidingWindow × SystemTime)
  orgs : Table Uuid OrgState
  checks : Nat

/-- A clock that stepped back reads as no idle time. -/
def idle (last now : SystemTime) : Nat := (now - last).toNat

def OrgState.sweep (org : OrgState) (now : SystemTime) : Option OrgState :=
  let used := org.used.filterMap fun key tokens =>
    if (BudgetPeriod.chargeTtl key now).isSome then some tokens else none
  if idle org.lastTouch now < rateIdle ∨ !used.isEmpty then
    some { org with used }
  else
    none

namespace MemoryLimitStore

def empty : MemoryLimitStore := ⟨∅, ∅, 0⟩

def sweep (store : MemoryLimitStore) (now : SystemTime) : MemoryLimitStore :=
  { store with
    principals := store.principals.filterMap fun _ entry =>
      if idle entry.2 now < rateIdle then some entry else none
    orgs := store.orgs.filterMap fun _ org => org.sweep now }

/-- The check counter, and the sweep it triggers. -/
def counted (store : MemoryLimitStore) (now : SystemTime) : MemoryLimitStore :=
  let next := { store with checks := (store.checks + 1) % 2 ^ 64 }
  if next.checks % sweepEvery = 0 then next.sweep now else next

def principalWindow (store : MemoryLimitStore) (principal : String) :
    SlidingWindow :=
  ((store.principals.lookup principal).map Prod.fst).getD .default

def orgWindow (store : MemoryLimitStore) (org : Uuid) : SlidingWindow :=
  ((store.orgs.lookup org).map OrgState.window).getD .default

def usedTokens (store : MemoryLimitStore) (org : Uuid) (key : PeriodKey) :
    Nat :=
  ((store.orgs.lookup org).bind fun state => state.used.lookup key).getD 0

/-- One rate dimension: its failed check, if its limit is set and refuses. -/
def failedRate (window : SlidingWindow) (limit : Option NonZeroU64)
    (now : SystemTime) (report : RateCounts → FailedCheck) :
    List FailedCheck :=
  match limit with
  | none => []
  | some limit =>
      match window.check now limit with
      | .ok _ => []
      | .error counts => [report counts]

/-- The budget that applies, with its organization and period. -/
def appliedBudget (policy : LimitPolicy) (org : Option Uuid)
    (now : SystemTime) : Option (Budget × Uuid × PeriodKey) :=
  match policy.budget, org with
  | some budget, some id => some (budget, id, budget.period.keyAt now)
  | _, _ => none

def failedBudget (store : MemoryLimitStore)
    (budget : Option (Budget × Uuid × PeriodKey)) : List FailedCheck :=
  match budget with
  | none => []
  | some (budget, id, key) =>
      if budget.tokens.val ≤ store.usedTokens id key then
        [budgetRefusal budget key]
      else
        []

/-- The failed rate checks, the principal's first. -/
def failedRates (store : MemoryLimitStore) (principal : String)
    (org : Option Uuid) (policy : LimitPolicy) (now : SystemTime) :
    List FailedCheck :=
  failedRate (store.principalWindow principal)
      policy.principalRequestsPerMinute now .principalRate ++
    match org with
    | none => []
    | some id => failedRate (store.orgWindow id) policy.orgRequestsPerMinute
        now .orgRate

def commitPrincipal (store : MemoryLimitStore) (principal : String)
    (policy : LimitPolicy) (now : SystemTime) : MemoryLimitStore :=
  if policy.principalRequestsPerMinute.isSome then
    { store with
      principals := store.principals.insert principal
        ((store.principalWindow principal).commit now, now) }
  else
    store

def commitOrg (store : MemoryLimitStore) (org : Option Uuid)
    (policy : LimitPolicy) (now : SystemTime) : MemoryLimitStore :=
  match policy.orgRequestsPerMinute, org with
  | some _, some id =>
      let entry := (store.orgs.lookup id).getD (.new now)
      { store with
        orgs := store.orgs.insert id
          { entry with window := entry.window.commit now, lastTouch := now } }
  | _, _ => store

def checkAndAdmit (store : MemoryLimitStore) (principal : String)
    (org : Option Uuid) (policy : LimitPolicy) (now : SystemTime) :
    LimitDecision × MemoryLimitStore :=
  let store := store.counted now
  let budget := appliedBudget policy org now
  let failed := store.failedRates principal org policy now ++
    store.failedBudget budget
  if failed.isEmpty then
    (.admitted (budget.map fun (_, org, period) => ⟨org, period⟩),
      (store.commitPrincipal principal policy now).commitOrg org policy now)
  else
    (.refused failed, store)

def charge (store : MemoryLimitStore) (ticket : LimitTicket) (tokens : Nat)
    (now : SystemTime) : MemoryLimitStore :=
  if tokens = 0 then
    store
  else if (BudgetPeriod.chargeTtl ticket.period now).isNone then
    store
  else
    let org := (store.orgs.lookup ticket.org).getD (.new now)
    let used := (org.used.lookup ticket.period).getD 0
    { store with
      orgs := store.orgs.insert ticket.org
        { org with
          used := org.used.insert ticket.period
            (U64.saturatingAdd used (min tokens maxTokensPerCharge))
          lastTouch := now } }

end MemoryLimitStore

/-- The failed rate checks of a decision. -/
def LimitDecision.failedRates : LimitDecision → List FailedCheck
  | .admitted _ => []
  | .refused failed => failed.filter fun check => check.waitSecs?.isSome

namespace MemoryLimitStore

variable {store : MemoryLimitStore} {principal : String} {org : Option Uuid}
  {policy : LimitPolicy}

/-- No stored window is ahead of the clock. -/
structure WindowsNotAhead (store : MemoryLimitStore) (now : SystemTime) :
    Prop where
  principals : ∀ principal entry,
    store.principals.lookup principal = some entry →
      entry.1.window ≤ (WindowIndex.atInstant now).index
  orgs : ∀ id state, store.orgs.lookup id = some state →
    state.window.window ≤ (WindowIndex.atInstant now).index

/-- Every entry was last touched at or after the epoch, and not before the
window it stores. -/
structure TouchedInOrder (store : MemoryLimitStore) : Prop where
  principals : ∀ principal entry,
    store.principals.lookup principal = some entry →
      0 ≤ entry.2 ∧ entry.1.window ≤ (WindowIndex.atInstant entry.2).index
  orgs : ∀ id state, store.orgs.lookup id = some state →
    0 ≤ state.lastTouch ∧
      state.window.window ≤ (WindowIndex.atInstant state.lastTouch).index

theorem failedRate_eq : failedRate = fun window limit now report =>
    match limit with
    | none => []
    | some limit =>
        match window.check now limit with
        | .ok _ => []
        | .error counts => [report counts] := by
  delta failedRate
  rfl

/-- The shape of a rate dimension, for any answers of its check: the arithmetic
of the check is not evaluated to compare the two sides. -/
theorem rateReports_eq {answer : NonZeroU64 → Except RateCounts Unit}
    {counts : NonZeroU64 → RateCounts}
    (decides : ∀ bound, answer bound =
      if (counts bound).admits then .ok () else .error (counts bound))
    (limit : Option NonZeroU64) (report : RateCounts → FailedCheck) :
    (match limit with
      | none => []
      | some limit =>
          match answer limit with
          | .ok _ => []
          | .error counts => [report counts]) =
      match limit with
      | none => []
      | some bound =>
          if (counts bound).admits then [] else [report (counts bound)] := by
  cases limit with
  | none => rfl
  | some bound =>
      dsimp only
      rw [decides]
      cases (counts bound).admits with
      | true => rfl
      | false => rfl

/-- A failed rate by its counts. -/
theorem failedRate_of_counts (window : SlidingWindow)
    (limit : Option NonZeroU64) (now : SystemTime)
    (report : RateCounts → FailedCheck) :
    failedRate window limit now report =
      match limit with
      | none => []
      | some bound =>
          if (window.counts now bound).admits then []
          else [report (window.counts now bound)] := by
  rw [failedRate_eq]
  exact @rateReports_eq (window.check now) (window.counts now)
    (fun bound => SlidingWindow.check.eq_def window now bound) limit report

theorem mem_failedRate {window : SlidingWindow} {limit : Option NonZeroU64}
    {now : SystemTime} {report : RateCounts → FailedCheck}
    {check : FailedCheck} :
    check ∈ failedRate window limit now report ↔
      ∃ bound, limit = some bound ∧
        (window.counts now bound).admits = false ∧
        check = report (window.counts now bound) := by
  rw [failedRate_of_counts]
  generalize window.counts now = counts
  cases limit with
  | none => simp
  | some bound =>
      cases admitted : (counts bound).admits with
      | true => simp [admitted]
      | false => simp [admitted]

theorem failedRates_checkAndAdmit (store : MemoryLimitStore)
    (principal : String) (org : Option Uuid) (policy : LimitPolicy)
    (now : SystemTime) :
    (store.checkAndAdmit principal org policy now).1.failedRates =
      (store.counted now).failedRates principal org policy now := by
  have rates : ∀ check ∈ (store.counted now).failedRates principal org policy
      now, check.waitSecs?.isSome = true := by
    intro check member
    rcases List.mem_append.mp member with first | second
    · obtain ⟨_, _, _, rfl⟩ := mem_failedRate.mp first
      rfl
    · cases org with
      | none => cases second
      | some id =>
          obtain ⟨_, _, _, rfl⟩ := mem_failedRate.mp second
          rfl
  have budgets : ∀ check ∈ (store.counted now).failedBudget
      (appliedBudget policy org now), check.waitSecs?.isSome = false := by
    intro check member
    unfold failedBudget at member
    split at member
    · cases member
    · split at member
      · rw [List.mem_singleton.mp member]
        rfl
      · cases member
  unfold checkAndAdmit
  dsimp only
  split
  case isTrue none =>
    obtain ⟨noRate, _⟩ := List.append_eq_nil_iff.mp (List.isEmpty_iff.mp none)
    rw [noRate]
    rfl
  case isFalse =>
    unfold LimitDecision.failedRates
    dsimp only
    rw [List.filter_append, List.filter_eq_self.mpr rates,
      List.filter_eq_nil_iff.mpr (by simpa using budgets), List.append_nil]

theorem refused_state {now : SystemTime} {failed : List FailedCheck}
    (refused : (store.checkAndAdmit principal org policy now).1 =
      .refused failed) :
    (store.checkAndAdmit principal org policy now).2 = store.counted now := by
  unfold checkAndAdmit at refused ⊢
  dsimp only at refused ⊢
  split at refused
  case isTrue none => cases refused
  case isFalse some => rw [if_neg some]

/-- What a check does to a principal's entry before it reads it. -/
theorem counted_principal (store : MemoryLimitStore) (now : SystemTime)
    (principal : String) :
    (store.counted now).principals.lookup principal =
        store.principals.lookup principal ∨
      ∃ entry, store.principals.lookup principal = some entry ∧
        rateIdle ≤ idle entry.2 now ∧
        (store.counted now).principals.lookup principal = none := by
  unfold counted
  dsimp only
  split
  case isFalse unswept => exact .inl rfl
  case isTrue swept =>
    unfold sweep
    dsimp only
    rw [Table.lookup_filterMap]
    cases found : store.principals.lookup principal with
    | none => exact .inl rfl
    | some entry =>
        by_cases fresh : idle entry.2 now < rateIdle
        · exact .inl (by simp [fresh])
        · exact .inr ⟨entry, rfl, by omega, by simp [fresh]⟩

/-- What a check does to an organization's entry before it reads it. -/
theorem counted_org (store : MemoryLimitStore) (now : SystemTime) (id : Uuid) :
    (store.counted now).orgs.lookup id = store.orgs.lookup id ∨
      ∃ state, store.orgs.lookup id = some state ∧
        (store.counted now).orgs.lookup id = state.sweep now := by
  unfold counted
  dsimp only
  split
  case isFalse unswept => exact .inl rfl
  case isTrue swept =>
    unfold sweep
    dsimp only
    rw [Table.lookup_filterMap]
    cases found : store.orgs.lookup id with
    | none => exact .inl rfl
    | some state => exact .inr ⟨state, rfl, rfl⟩

/-- A swept organization keeps its window unless it is idle. -/
theorem sweep_cases (state : OrgState) (now : SystemTime) :
    (∃ kept, state.sweep now = some kept ∧ kept.window = state.window ∧
        kept.lastTouch = state.lastTouch) ∨
      (rateIdle ≤ idle state.lastTouch now ∧ state.sweep now = none) := by
  unfold OrgState.sweep
  dsimp only
  split
  case isTrue kept => exact .inl ⟨_, rfl, rfl, rfl⟩
  case isFalse dropped => exact .inr ⟨by omega, rfl⟩

theorem WindowsNotAhead.counted {now : SystemTime}
    (notAhead : store.WindowsNotAhead now) (later : SystemTime) :
    (store.counted later).WindowsNotAhead now := by
  constructor
  · intro principal entry found
    rcases counted_principal store later principal with
      same | ⟨_, _, _, dropped⟩
    · rw [same] at found
      exact notAhead.principals principal entry found
    · rw [dropped] at found
      cases found
  · intro id state found
    rcases counted_org store later id with same | ⟨old, stored, swept⟩
    · rw [same] at found
      exact notAhead.orgs id state found
    · rw [swept] at found
      rcases sweep_cases old later with ⟨kept, isKept, window, _⟩ | ⟨_, gone⟩
      · rw [isKept] at found
        cases found
        rw [window]
        exact notAhead.orgs id old stored
      · rw [gone] at found
        cases found

theorem TouchedInOrder.counted (touched : store.TouchedInOrder)
    (later : SystemTime) : (store.counted later).TouchedInOrder := by
  constructor
  · intro principal entry found
    rcases counted_principal store later principal with
      same | ⟨_, _, _, dropped⟩
    · rw [same] at found
      exact touched.principals principal entry found
    · rw [dropped] at found
      cases found
  · intro id state found
    rcases counted_org store later id with same | ⟨old, stored, swept⟩
    · rw [same] at found
      exact touched.orgs id state found
    · rw [swept] at found
      rcases sweep_cases old later with
        ⟨kept, isKept, window, touch⟩ | ⟨_, gone⟩
      · rw [isKept] at found
        cases found
        rw [window, touch]
        exact touched.orgs id old stored
      · rw [gone] at found
        cases found

theorem WindowsNotAhead.principalWindow {now : SystemTime}
    (notAhead : store.WindowsNotAhead now) (principal : String) :
    (store.principalWindow principal).window ≤
      (WindowIndex.atInstant now).index := by
  unfold MemoryLimitStore.principalWindow
  cases found : store.principals.lookup principal with
  | none => exact Nat.zero_le _
  | some entry => exact notAhead.principals principal entry found

theorem WindowsNotAhead.orgWindow {now : SystemTime}
    (notAhead : store.WindowsNotAhead now) (id : Uuid) :
    (store.orgWindow id).window ≤ (WindowIndex.atInstant now).index := by
  unfold MemoryLimitStore.orgWindow
  cases found : store.orgs.lookup id with
  | none => exact Nat.zero_le _
  | some state => exact notAhead.orgs id state found

/-- Two windows begin while an entry is idle. -/
theorem index_of_idle {last now : Int} (afterEpoch : 0 ≤ last)
    (isIdle : rateIdle ≤ idle last now)
    (represented : now.toNat / 1000000 ≤ U64.maxValue) :
    (WindowIndex.atInstant last).index + 2 ≤
      (WindowIndex.atInstant now).index := by
  unfold idle rateIdle at isIdle
  rw [WindowIndex.atInstant_index, WindowIndex.atInstant_index]
  unfold minuteNs U64.maxValue rateWindowMs at *
  omega

/-- An idle window no longer counts. -/
theorem counts_of_idle {window : SlidingWindow} {last now : Int}
    (limit : NonZeroU64) (afterEpoch : 0 ≤ last)
    (touched : window.window ≤ (WindowIndex.atInstant last).index)
    (isIdle : rateIdle ≤ idle last now)
    (represented : now.toNat / 1000000 ≤ U64.maxValue) :
    window.counts now limit = SlidingWindow.default.counts now limit := by
  have far := index_of_idle afterEpoch isIdle represented
  have gap : (WindowIndex.atInstant now).index = window.window +
      ((WindowIndex.atInstant now).index - window.window) := by omega
  have fromStart : (WindowIndex.atInstant now).index =
      SlidingWindow.default.window + (WindowIndex.atInstant now).index := by
    exact (Nat.zero_add _).symm
  rw [SlidingWindow.counts_eq_shifted limit gap,
    SlidingWindow.counts_eq_shifted limit fromStart,
    SlidingWindow.shifted_far window (by omega),
    SlidingWindow.shifted_far SlidingWindow.default (by omega)]

/-- The sweep of a check does not change what the check reads. -/
theorem TouchedInOrder.principal_counts (touched : store.TouchedInOrder)
    {now : Int} (represented : now.toNat / 1000000 ≤ U64.maxValue)
    (principal : String) (limit : NonZeroU64) :
    ((store.counted now).principalWindow principal).counts now limit =
      (store.principalWindow principal).counts now limit := by
  unfold MemoryLimitStore.principalWindow
  rcases counted_principal store now principal with
    same | ⟨entry, found, isIdle, dropped⟩
  · rw [same]
  · obtain ⟨afterEpoch, inOrder⟩ := touched.principals principal entry found
    rw [dropped, found]
    exact (counts_of_idle limit afterEpoch inOrder isIdle represented).symm

theorem TouchedInOrder.org_counts (touched : store.TouchedInOrder)
    {now : Int} (represented : now.toNat / 1000000 ≤ U64.maxValue)
    (id : Uuid) (limit : NonZeroU64) :
    ((store.counted now).orgWindow id).counts now limit =
      (store.orgWindow id).counts now limit := by
  unfold MemoryLimitStore.orgWindow
  rcases counted_org store now id with same | ⟨state, found, swept⟩
  · rw [same]
  · obtain ⟨afterEpoch, inOrder⟩ := touched.orgs id state found
    rw [swept, found]
    rcases sweep_cases state now with
      ⟨kept, isKept, window, _⟩ | ⟨isIdle, gone⟩
    · rw [isKept]
      simp [window]
    · rw [gone]
      exact (counts_of_idle limit afterEpoch inOrder isIdle represented).symm

/-- One dimension some seconds later: it passes once its reported wait, if
there was one, is over. -/
theorem failedRate_later {window later : SlidingWindow} {now : Int}
    {secs : Nat} (report : RateCounts → FailedCheck)
    (reports : ∀ counts, (report counts).waitSecs? =
      some counts.retryAfterSecs)
    (afterEpoch : 0 ≤ now)
    (represented : (now + secs * 1000000000).toNat / 1000000 ≤ U64.maxValue)
    (notAhead : window.window ≤ (WindowIndex.atInstant now).index)
    (unswept : ∀ limit, later.counts (now + secs * 1000000000) limit =
      window.counts (now + secs * 1000000000) limit)
    (limit : Option NonZeroU64) :
    failedRate later limit (now + secs * 1000000000) report = [] ↔
      ∀ check ∈ failedRate window limit now report, ∀ wait,
        check.waitSecs? = some wait → wait ≤ secs := by
  rw [List.eq_nil_iff_forall_not_mem]
  constructor
  · intro passes check member wait waits
    obtain ⟨bound, isBound, refused, rfl⟩ := mem_failedRate.mp member
    rw [reports] at waits
    cases waits
    by_contra early
    apply passes (report (later.counts (now + secs * 1000000000) bound))
    apply mem_failedRate.mpr
    refine ⟨bound, isBound, ?_, rfl⟩
    rw [unswept, ← Bool.not_eq_true, window.admits_secs_later bound afterEpoch
      represented notAhead, refused]
    simpa using early
  · intro beyond check member
    obtain ⟨bound, isBound, refused, rfl⟩ := mem_failedRate.mp member
    rw [unswept, ← Bool.not_eq_true, window.admits_secs_later bound afterEpoch
      represented notAhead, not_or, Bool.not_eq_true] at refused
    obtain ⟨refusedNow, early⟩ := refused
    apply early
    exact beyond (report (window.counts now bound))
      (mem_failedRate.mpr ⟨bound, isBound, refusedNow, rfl⟩) _ (reports _)

/-- Both dimensions some seconds later. -/
theorem failedRates_later {now : Int} {secs : Nat} (afterEpoch : 0 ≤ now)
    (represented : (now + secs * 1000000000).toNat / 1000000 ≤ U64.maxValue)
    (notAhead : store.WindowsNotAhead now) (touched : store.TouchedInOrder) :
    (store.counted (now + secs * 1000000000)).failedRates principal org policy
        (now + secs * 1000000000) = [] ↔
      ∀ check ∈ store.failedRates principal org policy now, ∀ wait,
        check.waitSecs? = some wait → wait ≤ secs := by
  have first := failedRate_later .principalRate (fun _ => rfl) afterEpoch
    represented (notAhead.principalWindow principal)
    (touched.principal_counts represented principal)
    policy.principalRequestsPerMinute
  unfold failedRates
  rw [List.append_eq_nil_iff, first]
  cases org with
  | none => simp
  | some id =>
      have second := failedRate_later .orgRate (fun _ => rfl) afterEpoch
        represented (notAhead.orgWindow id) (touched.org_counts represented id)
        policy.orgRequestsPerMinute
      dsimp only
      rw [second]
      constructor
      · rintro ⟨ofPrincipal, ofOrg⟩ check member
        rcases List.mem_append.mp member with isFirst | isSecond
        · exact ofPrincipal check isFirst
        · exact ofOrg check isSecond
      · intro both
        exact ⟨fun check member => both check (List.mem_append_left _ member),
          fun check member => both check (List.mem_append_right _ member)⟩

/-- The same request passes every rate dimension after the given number of
seconds, and after none of the shorter waits. -/
structure RetryIsExact (store : MemoryLimitStore) (principal : String)
    (org : Option Uuid) (policy : LimitPolicy) (now : Int) (secs : Nat) :
    Prop where
  positive : 1 ≤ secs
  passes : (store.checkAndAdmit principal org policy
    (now + secs * 1000000000)).1.failedRates = []
  refused : ∀ wait, 1 ≤ wait → wait < secs →
    (store.checkAndAdmit principal org policy
      (now + wait * 1000000000)).1.failedRates ≠ []

/-- The reported wait of a rate refusal is exact. -/
theorem retry_is_exact {now : Int} {secs : Nat} {reason : RefusalReason}
    {failed : List FailedCheck} (afterEpoch : 0 ≤ now)
    (represented : (now + secs * 1000000000).toNat / 1000000 ≤ U64.maxValue)
    (notAhead : store.WindowsNotAhead now) (touched : store.TouchedInOrder)
    (refused : (store.checkAndAdmit principal org policy now).1 =
      .refused failed)
    (chosen : chooseRefusal failed = some (.rateLimited secs reason)) :
    RetryIsExact (store.checkAndAdmit principal org policy now).2 principal org
      policy now secs := by
  obtain ⟨⟨slowest, failing, isSlowest⟩, bound⟩ :=
    chooseRefusal_rateLimited chosen
  have rates : (store.counted now).failedRates principal org policy now =
      failed.filter fun check => check.waitSecs?.isSome := by
    rw [← failedRates_checkAndAdmit, refused]
    rfl
  have slowestRate : slowest ∈ (store.counted now).failedRates principal org
      policy now := by
    rw [rates]
    exact List.mem_filter.mpr ⟨failing, by rw [isSlowest]; rfl⟩
  have notAheadNow := notAhead.counted now
  have touchedNow := touched.counted now
  rw [refused_state refused]
  constructor
  case positive =>
    cases slowest with
    | principalRate counts =>
        cases isSlowest
        exact one_le_retryAfterSecs counts
    | orgRate counts =>
        cases isSlowest
        exact one_le_retryAfterSecs counts
    | budget period resetsAtUnix => cases isSlowest
  case passes =>
    rw [failedRates_checkAndAdmit,
      failedRates_later afterEpoch represented notAheadNow touchedNow]
    intro check member
    rw [rates] at member
    exact bound check (List.mem_filter.mp member).1
  case refused =>
    intro wait _ early
    have earlier : (now + wait * 1000000000).toNat / 1000000 ≤
        U64.maxValue := by omega
    rw [failedRates_checkAndAdmit, ne_eq,
      failedRates_later afterEpoch earlier notAheadNow touchedNow]
    intro beyond
    have done := beyond slowest slowestRate secs isSlowest
    omega

section OnePrincipal

def onePrincipal (window : SlidingWindow) (last : SystemTime) (checks : Nat) :
    MemoryLimitStore :=
  ⟨AList.insert "alice" (window, last) ∅, ∅, checks⟩

def rateOnly (limit : NonZeroU64) : LimitPolicy := ⟨some limit, none, none⟩

variable {window : SlidingWindow} {last : SystemTime} {checks : Nat}

theorem onePrincipal_entry {principal : String}
    {entry : SlidingWindow × SystemTime}
    (found : (onePrincipal window last checks).principals.lookup principal =
      some entry) : entry = (window, last) := by
  unfold onePrincipal at found
  by_cases same : principal = "alice"
  · subst same
    rw [AList.lookup_insert] at found
    exact (Option.some.inj found).symm
  · rw [AList.lookup_insert_ne same] at found
    cases found

theorem onePrincipal_notAhead {now : SystemTime}
    (notAhead : window.window ≤ (WindowIndex.atInstant now).index) :
    (onePrincipal window last checks).WindowsNotAhead now := by
  constructor
  · intro principal entry found
    rw [onePrincipal_entry found]
    exact notAhead
  · intro id state found
    cases found

theorem onePrincipal_touched (afterEpoch : 0 ≤ last)
    (inOrder : window.window ≤ (WindowIndex.atInstant last).index) :
    (onePrincipal window last checks).TouchedInOrder := by
  constructor
  · intro principal entry found
    rw [onePrincipal_entry found]
    exact ⟨afterEpoch, inOrder⟩
  · intro id state found
    cases found

def onePerMinute : NonZeroU64 := ⟨1, by decide⟩

/-- Two requests in the eleventh minute fill a limit of two for 85 seconds. -/
theorem retry_is_exact_sample :
    ((onePrincipal ⟨10, 0, 2⟩ 600000000000 0).checkAndAdmit "alice" none
        (rateOnly Meter.twoPerMinute) 605000000000).1 =
      .refused [.principalRate ⟨0, 2, 5000, 2⟩] ∧
      RetryIsExact ((onePrincipal ⟨10, 0, 2⟩ 600000000000 0).checkAndAdmit
        "alice" none (rateOnly Meter.twoPerMinute) 605000000000).2 "alice" none
        (rateOnly Meter.twoPerMinute) 605000000000 85 := by
  have refused : ((onePrincipal ⟨10, 0, 2⟩ 600000000000 0).checkAndAdmit
      "alice" none (rateOnly Meter.twoPerMinute) 605000000000).1 =
        .refused [.principalRate ⟨0, 2, 5000, 2⟩] := by
    decide
  refine ⟨refused, ?_⟩
  exact retry_is_exact (by decide) (by decide)
    (onePrincipal_notAhead (by decide)) (onePrincipal_touched (by decide)
      (by decide)) refused (show chooseRefusal _ =
        some (.rateLimited 85 .principalRate) by decide)

/-- A limit of two filled by a request at 600 s and one at 480 s, after the
clock stepped back; the next check but one sweeps. -/
def steppedBack : MemoryLimitStore :=
  let first := (MemoryLimitStore.mk ∅ ∅ 1020).checkAndAdmit "alice" none
    (rateOnly Meter.twoPerMinute) 600000000000
  (first.2.checkAndAdmit "alice" none (rateOnly Meter.twoPerMinute)
    480000000000).2

/-- The last millisecond the counters represent. -/
def lastInstant : Int := 18446744073709551615000000

/-- The wait is too long where a sweep drops an entry that was last touched
before its window, and too short where the clock reads the same millisecond
again: before the epoch and after the last represented millisecond. -/
theorem retry_is_not_exact :
    (steppedBack.WindowsNotAhead 605000000000 ∧
      (steppedBack.checkAndAdmit "alice" none (rateOnly Meter.twoPerMinute)
        605000000000).1 = .refused [.principalRate ⟨0, 2, 5000, 2⟩] ∧
      chooseRefusal [.principalRate ⟨0, 2, 5000, 2⟩] =
        some (.rateLimited 85 .principalRate) ∧
      ¬ RetryIsExact (steppedBack.checkAndAdmit "alice" none
        (rateOnly Meter.twoPerMinute) 605000000000).2 "alice" none
        (rateOnly Meter.twoPerMinute) 605000000000 85) ∧
    ((onePrincipal ⟨0, 0, 1⟩ (-5000000000) 0).WindowsNotAhead (-5000000000) ∧
      ((onePrincipal ⟨0, 0, 1⟩ (-5000000000) 0).checkAndAdmit "alice" none
        (rateOnly onePerMinute) (-5000000000)).1 =
          .refused [.principalRate ⟨0, 1, 0, 1⟩] ∧
      chooseRefusal [.principalRate ⟨0, 1, 0, 1⟩] =
        some (.rateLimited 120 .principalRate) ∧
      ¬ RetryIsExact ((onePrincipal ⟨0, 0, 1⟩ (-5000000000) 0).checkAndAdmit
        "alice" none (rateOnly onePerMinute) (-5000000000)).2 "alice" none
        (rateOnly onePerMinute) (-5000000000) 120) ∧
    ((onePrincipal ⟨307445734561825, 0, 1⟩ lastInstant 0).WindowsNotAhead
        lastInstant ∧
      ((onePrincipal ⟨307445734561825, 0, 1⟩ lastInstant 0).checkAndAdmit
        "alice" none (rateOnly onePerMinute) lastInstant).1 =
          .refused [.principalRate ⟨0, 1, 51615, 1⟩] ∧
      chooseRefusal [.principalRate ⟨0, 1, 51615, 1⟩] =
        some (.rateLimited 69 .principalRate) ∧
      ¬ RetryIsExact ((onePrincipal ⟨307445734561825, 0, 1⟩ lastInstant
        0).checkAndAdmit "alice" none (rateOnly onePerMinute) lastInstant).2
        "alice" none (rateOnly onePerMinute) lastInstant 69) := by
  refine ⟨⟨?_, by decide, by decide, ?_⟩, ⟨onePrincipal_notAhead (by decide),
    by decide, by decide, ?_⟩, ⟨onePrincipal_notAhead (by decide), by decide,
    by decide, ?_⟩⟩
  · have stored : steppedBack = onePrincipal ⟨10, 0, 2⟩ 480000000000 1022 :=
      rfl
    rw [stored]
    exact onePrincipal_notAhead (by decide)
  · intro isExact
    have swept := isExact.refused 1 (by decide) (by decide)
    revert swept
    decide
  · intro isExact
    have passes := isExact.passes
    revert passes
    decide
  · intro isExact
    have passes := isExact.passes
    revert passes
    decide

end OnePrincipal

end MemoryLimitStore

end Paigasus.Gateway
