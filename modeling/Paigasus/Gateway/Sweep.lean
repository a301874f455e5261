import Paigasus.Gateway.MemoryStore
import Paigasus.Gateway.Periods

/-!
# The sweep is invisible

The store is compared with one that only counts its checks and never sweeps.
What the sweep drops is stale: a window that no later check reads, or the used
tokens of a period that takes no charge any more and is not the current one.
For a clock that goes forward from the epoch and stays within the dates both
stores decide alike.
-/

namespace Paigasus.Gateway

open Foundation

namespace SlidingWindow

/-- Two windows have begun since the stored one. -/
def Stale (now : SystemTime) (window : SlidingWindow) : Prop :=
  window.window + 2 ≤ (WindowIndex.atInstant now).index

theorem Stale.counts {now : SystemTime} {window : SlidingWindow}
    (stale : window.Stale now) (limit : NonZeroU64) :
    window.counts now limit =
      ⟨0, 0, (WindowIndex.atInstant now).elapsedMs, limit.val⟩ := by
  unfold Stale at stale
  have gap : (WindowIndex.atInstant now).index = window.window +
      ((WindowIndex.atInstant now).index - window.window) := by omega
  rw [counts_eq_shifted limit gap, shifted_far window (by omega)]

theorem Stale.commit {now : SystemTime} {window : SlidingWindow}
    (stale : window.Stale now) :
    window.commit now = ⟨(WindowIndex.atInstant now).index, 0, 1⟩ := by
  unfold Stale at stale
  have successor : (WindowIndex.atInstant now).index ≠
      U64.saturatingAdd window.window 1 := by
    unfold U64.saturatingAdd
    omega
  unfold SlidingWindow.commit
  simp only [if_pos (show window.window < (WindowIndex.atInstant now).index by
    omega), if_neg successor]
  rfl

/-- The same window, or two that nothing reads any more. -/
def Alike (now : SystemTime) (left right : SlidingWindow) : Prop :=
  left = right ∨ (left.Stale now ∧ right.Stale now)

variable {now later : SystemTime} {left right : SlidingWindow}

theorem Alike.counts (alike : Alike now left right) (limit : NonZeroU64) :
    left.counts now limit = right.counts now limit := by
  rcases alike with rfl | ⟨leftStale, rightStale⟩
  · rfl
  · rw [leftStale.counts, rightStale.counts]

theorem Alike.check (alike : Alike now left right) :
    left.check now = right.check now := by
  funext limit
  unfold SlidingWindow.check
  rw [alike.counts]

theorem Alike.commit (alike : Alike now left right) :
    left.commit now = right.commit now := by
  rcases alike with rfl | ⟨leftStale, rightStale⟩
  · rfl
  · rw [leftStale.commit, rightStale.commit]

theorem Alike.advance (alike : Alike now left right) (forward : now ≤ later) :
    Alike later left right := by
  have index := WindowIndex.atInstant_index_mono forward
  rcases alike with same | ⟨leftStale, rightStale⟩
  · exact .inl same
  · unfold Stale at leftStale rightStale
    exact .inr ⟨Nat.le_trans leftStale index, Nat.le_trans rightStale index⟩

theorem commit_window_le (window : SlidingWindow) (now : SystemTime)
    (notAhead : window.window ≤ (WindowIndex.atInstant now).index) :
    (window.commit now).window = (WindowIndex.atInstant now).index := by
  unfold SlidingWindow.commit
  dsimp only
  split
  case isTrue => rfl
  case isFalse reached => exact Nat.le_antisymm notAhead (Nat.le_of_not_lt reached)

end SlidingWindow

/-- The first instant that is on no date. -/
def lastDateEnd : SystemTime :=
  (NaiveDate.maxDay + 1 - epochDay) * 86400 * 1000000000

/-- At or after the epoch, and on a date. -/
def IsDated (now : SystemTime) : Prop := (0 : Int) ≤ now ∧ now < lastDateEnd

instance (now : SystemTime) : Decidable (IsDated now) :=
  inferInstanceAs (Decidable (_ ∧ _))

namespace PeriodKey

/-- The second from which no charge to the period is kept. -/
def closesAt (key : PeriodKey) : Int :=
  (I64.clamp (key.resetsAtUnix + lateChargeGraceSecs)).val

def nowSecs (now : SystemTime) : Int :=
  (I64.clamp (now.toNat / 1000000000 : Nat)).val

theorem nowSecs_mono {now later : SystemTime} (forward : now ≤ later) :
    nowSecs now ≤ nowSecs later := by
  have nats : now.toNat ≤ later.toNat := Int.toNat_le_toNat forward
  have secs : now.toNat / 1000000000 ≤ later.toNat / 1000000000 :=
    Nat.div_le_div_right nats
  unfold nowSecs
  rw [I64.clamp_val, I64.clamp_val]
  omega

theorem chargeTtl_isSome (key : PeriodKey) (now : SystemTime) :
    (BudgetPeriod.chargeTtl key now).isSome = true ↔
      nowSecs now < key.closesAt ∧ key.closesAt - nowSecs now < 2 ^ 32 := by
  have inRange := (I64.clamp (key.resetsAtUnix + lateChargeGraceSecs)).property
  have nowRange := (I64.clamp (now.toNat / 1000000000 : Nat)).property
  unfold BudgetPeriod.chargeTtl closesAt nowSecs
  dsimp only
  rw [I64.saturatingSub, I64.clamp_val]
  split
  case isTrue closed =>
    simp only [Option.isSome_none, Bool.false_eq_true, false_iff]
    omega
  case isFalse =>
    split
    case isTrue =>
      simp only [Option.isSome_some, true_iff]
      omega
    case isFalse =>
      simp only [Option.isSome_none, Bool.false_eq_true, false_iff]
      omega

theorem chargeTtl_eq_some {key : PeriodKey} {now : SystemTime}
    {seconds : Nat}
    (lifetime : BudgetPeriod.chargeTtl key now = some seconds) :
    (seconds : Int) = key.closesAt - nowSecs now ∧ 0 < seconds := by
  have inRange := (I64.clamp (key.resetsAtUnix + lateChargeGraceSecs)).property
  have nowRange := (I64.clamp (now.toNat / 1000000000 : Nat)).property
  unfold BudgetPeriod.chargeTtl at lifetime
  unfold closesAt nowSecs
  dsimp only at lifetime
  rw [I64.saturatingSub, I64.clamp_val] at lifetime
  split at lifetime
  case isTrue => cases lifetime
  case isFalse =>
    split at lifetime
    case isTrue =>
      have same := Option.some.inj lifetime
      omega
    case isFalse => cases lifetime

/-- The current period takes charges. -/
theorem nowSecs_lt_closesAt (period : BudgetPeriod) {now : Int}
    (dated : IsDated now) : nowSecs now < (period.keyAt now).closesAt := by
  obtain ⟨recent, last⟩ := dated
  have before : now <
      (NaiveDate.maxDay + 1 - epochDay) * 86400 * 1000000000 := last
  have isDay := BudgetPeriod.dateAt_unixSecs recent
  have afterEpoch := BudgetPeriod.epochDay_le_dateAt recent
  have day : (BudgetPeriod.dateAt (unixSecs now)).day ≤
      (period.keyAt now).endDate.day := by
    rw [BudgetPeriod.keyAt_eq, endDate_eq,
      period.checkedEndDate_keyOfDate afterEpoch]
    cases next : NaiveDate.ofDay?
        (period.nextDay (BudgetPeriod.dateAt (unixSecs now)).day) with
    | none => exact (BudgetPeriod.dateAt (unixSecs now)).inRange.2
    | some stop =>
        have inPeriod :=
          period.day_in_period (BudgetPeriod.dateAt (unixSecs now)).day
        rw [Option.getD_some, NaiveDate.ofDay?_eq_some.mp next]
        omega
  have endsInRange := (period.keyAt now).endDate.inRange.2
  unfold closesAt nowSecs resetsAtUnix
  rw [I64.clamp_val, I64.clamp_val]
  unfold lateChargeGraceSecs epochDay NaiveDate.maxDay at *
  omega

end PeriodKey

namespace MemoryLimitStore

variable {store swept full : MemoryLimitStore} {now later : SystemTime}

/-- What a check does after the count. -/
def decided (store : MemoryLimitStore) (principal : String)
    (org : Option Uuid) (policy : LimitPolicy) (now : SystemTime) :
    LimitDecision × MemoryLimitStore :=
  let budget := appliedBudget policy org now
  let failed := store.failedRates principal org policy now ++
    store.failedBudget budget
  if failed.isEmpty then
    (.admitted (budget.map fun (_, org, period) => ⟨org, period⟩),
      (store.commitPrincipal principal policy now).commitOrg org policy now)
  else
    (.refused failed, store)

theorem checkAndAdmit_eq (store : MemoryLimitStore) (principal : String)
    (org : Option Uuid) (policy : LimitPolicy) (now : SystemTime) :
    store.checkAndAdmit principal org policy now =
      (store.counted now).decided principal org policy now := rfl

/-- The count of a store that never sweeps. -/
def countedOnly (store : MemoryLimitStore) : MemoryLimitStore :=
  { store with checks := (store.checks + 1) % 2 ^ 64 }

/-- `check_and_admit` of a store that never sweeps. -/
def checkUnswept (store : MemoryLimitStore) (principal : String)
    (org : Option Uuid) (policy : LimitPolicy) (now : SystemTime) :
    LimitDecision × MemoryLimitStore :=
  store.countedOnly.decided principal org policy now

/-- Every entry was last touched by now, and every period with used tokens
could be charged by now. -/
structure Settled (store : MemoryLimitStore) (now : SystemTime) : Prop where
  touched : store.TouchedInOrder
  principals : ∀ principal entry,
    store.principals.lookup principal = some entry → entry.2 ≤ now
  orgs : ∀ id state, store.orgs.lookup id = some state →
    state.lastTouch ≤ now ∧ ∀ key tokens, state.used.lookup key = some tokens →
      key.closesAt - PeriodKey.nowSecs now < 2 ^ 32

/-- The two stores differ in stale windows and closed periods only. -/
structure Agree (now : SystemTime) (swept full : MemoryLimitStore) :
    Prop where
  settled : swept.Settled now
  principals : ∀ principal, SlidingWindow.Alike now
    (swept.principalWindow principal) (full.principalWindow principal)
  orgs : ∀ id, SlidingWindow.Alike now (swept.orgWindow id) (full.orgWindow id)
  used : ∀ id key, PeriodKey.nowSecs now < key.closesAt →
    swept.usedTokens id key = full.usedTokens id key

theorem agree_empty (now : SystemTime) : Agree now empty empty where
  settled :=
    { touched := ⟨nofun, nofun⟩
      principals := nofun
      orgs := nofun }
  principals _ := .inl rfl
  orgs _ := .inl rfl
  used _ _ _ := rfl

theorem Agree.advance (agree : Agree now swept full) (forward : now ≤ later) :
    Agree later swept full where
  settled :=
    { touched := agree.settled.touched
      principals := fun principal entry found =>
        (agree.settled.principals principal entry found).trans forward
      orgs := by
        intro id state found
        obtain ⟨touched, charged⟩ := agree.settled.orgs id state found
        refine ⟨touched.trans forward, ?_⟩
        intro key tokens used
        have secs := PeriodKey.nowSecs_mono forward
        have open_ := charged key tokens used
        omega }
  principals principal := (agree.principals principal).advance forward
  orgs id := (agree.orgs id).advance forward
  used id key isOpen :=
    agree.used id key (lt_of_le_of_lt (PeriodKey.nowSecs_mono forward) isOpen)

theorem IsDated.represented {now : Int} (dated : IsDated now) :
    now.toNat / 1000000 ≤ U64.maxValue := by
  have before : now <
      (NaiveDate.maxDay + 1 - epochDay) * 86400 * 1000000000 := dated.2
  unfold NaiveDate.maxDay epochDay at before
  unfold U64.maxValue
  omega

/-- A dated instant lies in its second. -/
theorem nowSecs_bounds {now : Int} (dated : IsDated now) :
    1000 * PeriodKey.nowSecs now ≤ unixMs now ∧
      (unixMs now : Int) < 1000 * (PeriodKey.nowSecs now + 1) ∧
      unixMs now < 2 ^ 62 := by
  have before : now <
      (NaiveDate.maxDay + 1 - epochDay) * 86400 * 1000000000 := dated.2
  have milliseconds : unixMs now = now.toNat / 1000000 :=
    Nat.min_eq_left (IsDated.represented dated)
  unfold PeriodKey.nowSecs
  rw [I64.clamp_val, milliseconds]
  unfold NaiveDate.maxDay epochDay at before
  omega

/-- What the sweep replaces a dropped window by is as stale as the window. -/
theorem stale_of_idle {window : SlidingWindow} {last : SystemTime}
    (dated : IsDated now) (afterEpoch : (0 : Int) ≤ last)
    (inOrder : window.window ≤ (WindowIndex.atInstant last).index)
    (isIdle : rateIdle ≤ idle last now) :
    window.Stale now ∧ SlidingWindow.default.Stale now := by
  have far := index_of_idle afterEpoch isIdle (IsDated.represented dated)
  have start : SlidingWindow.default.window = 0 := rfl
  unfold SlidingWindow.Stale
  omega

theorem alike_default {left right : SlidingWindow}
    (alike : SlidingWindow.Alike now left right)
    (stale : left.Stale now ∧ SlidingWindow.default.Stale now) :
    SlidingWindow.Alike now .default right := by
  rcases alike with rfl | ⟨_, rightStale⟩
  · exact .inr ⟨stale.2, stale.1⟩
  · exact .inr ⟨stale.2, rightStale⟩

/-- A swept organization keeps the used tokens of the open periods. -/
theorem sweep_used (state : OrgState) (now : SystemTime) (key : PeriodKey) :
    ((state.sweep now).bind fun kept => kept.used.lookup key) =
      (state.used.lookup key).bind fun tokens =>
        if (BudgetPeriod.chargeTtl key now).isSome then some tokens
        else none := by
  have filtered := Table.lookup_filterMap (fun key tokens =>
    if (BudgetPeriod.chargeTtl key now).isSome = true then some tokens
    else none) state.used key
  refine Eq.trans ?_ filtered
  unfold OrgState.sweep
  dsimp only
  split
  case isTrue => rfl
  case isFalse dropped =>
    have noEntries : (state.used.filterMap fun key tokens =>
        if (BudgetPeriod.chargeTtl key now).isSome = true then some tokens
        else none).isEmpty = true := by
      by_contra present
      exact dropped (.inr (by simpa using present))
    rw [Table.lookup_of_isEmpty noEntries]
    rfl

/-- A count keeps the entries touched by now. -/
theorem Agree.counted_principals (agree : Agree now swept full)
    (principal : String) (entry : SlidingWindow × SystemTime)
    (found : (swept.counted now).principals.lookup principal = some entry) :
    entry.2 ≤ now := by
  rcases counted_principal swept now principal with
    same | ⟨_, _, _, dropped⟩
  · rw [same] at found
    exact agree.settled.principals principal entry found
  · rw [dropped] at found
    cases found

theorem Agree.counted_states (agree : Agree now swept full) (id : Uuid)
    (state : OrgState)
    (found : (swept.counted now).orgs.lookup id = some state) :
    state.lastTouch ≤ now ∧ ∀ key tokens,
      state.used.lookup key = some tokens →
        key.closesAt - PeriodKey.nowSecs now < 2 ^ 32 := by
  rcases counted_org swept now id with same | ⟨old, stored, isSwept⟩
  · rw [same] at found
    exact agree.settled.orgs id state found
  · rw [isSwept] at found
    obtain ⟨lastTouch, charged⟩ := agree.settled.orgs id old stored
    rcases sweep_cases old now with ⟨kept, isKept, _, sameTouch⟩ | ⟨_, gone⟩
    · rw [isKept] at found
      cases found
      refine ⟨by rw [sameTouch]; exact lastTouch, ?_⟩
      intro key tokens used
      have source := sweep_used old now key
      rw [isKept, Option.bind_some, used] at source
      obtain ⟨oldTokens, isOld, _⟩ := Option.bind_eq_some_iff.mp source.symm
      exact charged key oldTokens isOld
    · rw [gone] at found
      cases found

/-- A dropped window was stale. -/
theorem Agree.counted_principalWindow (agree : Agree now swept full)
    (dated : IsDated now) (principal : String) :
    SlidingWindow.Alike now ((swept.counted now).principalWindow principal)
      (full.countedOnly.principalWindow principal) := by
  have touched := agree.settled.touched
  have alike := agree.principals principal
  unfold principalWindow at alike ⊢
  rcases counted_principal swept now principal with
    same | ⟨entry, found, isIdle, dropped⟩
  · rw [same]
    exact alike
  · obtain ⟨afterEpoch, inOrder⟩ := touched.principals principal entry found
    rw [found] at alike
    rw [dropped]
    exact alike_default alike (stale_of_idle dated afterEpoch inOrder isIdle)

theorem Agree.counted_orgWindow (agree : Agree now swept full)
    (dated : IsDated now) (id : Uuid) :
    SlidingWindow.Alike now ((swept.counted now).orgWindow id)
      (full.countedOnly.orgWindow id) := by
  have touched := agree.settled.touched
  have alike := agree.orgs id
  unfold orgWindow at alike ⊢
  rcases counted_org swept now id with same | ⟨old, stored, isSwept⟩
  · rw [same]
    exact alike
  · obtain ⟨afterEpoch, inOrder⟩ := touched.orgs id old stored
    rw [stored] at alike
    rw [isSwept]
    rcases sweep_cases old now with
      ⟨kept, isKept, window, _⟩ | ⟨isIdle, gone⟩
    · rw [isKept, Option.map_some, Option.getD_some, window]
      exact alike
    · rw [gone]
      exact alike_default alike
        (stale_of_idle dated afterEpoch inOrder isIdle)

theorem Agree.counted_usedTokens (agree : Agree now swept full) (id : Uuid)
    (key : PeriodKey) (isOpen : PeriodKey.nowSecs now < key.closesAt) :
    (swept.counted now).usedTokens id key =
      full.countedOnly.usedTokens id key := by
  have same := agree.used id key isOpen
  unfold usedTokens at same ⊢
  refine Eq.trans ?_ same
  rcases counted_org swept now id with unswept | ⟨old, stored, isSwept⟩
  · rw [unswept]
  · rw [isSwept, stored, sweep_used, Option.bind_some]
    cases used : old.used.lookup key with
    | none => rfl
    | some tokens =>
        have charged := (agree.settled.orgs id old stored).2 key tokens used
        rw [Option.bind_some,
          if_pos ((PeriodKey.chargeTtl_isSome key now).mpr ⟨isOpen, charged⟩)]

theorem Agree.counted (agree : Agree now swept full) (dated : IsDated now) :
    Agree now (swept.counted now) full.countedOnly where
  settled :=
    { touched := agree.settled.touched.counted now
      principals := agree.counted_principals
      orgs := agree.counted_states }
  principals := agree.counted_principalWindow dated
  orgs := agree.counted_orgWindow dated
  used := agree.counted_usedTokens

theorem failedRate_congr {left right : SlidingWindow}
    (alike : SlidingWindow.Alike now left right) (limit : Option NonZeroU64)
    (report : RateCounts → FailedCheck) :
    failedRate left limit now report = failedRate right limit now report := by
  unfold failedRate
  rw [alike.check]

theorem Agree.failedRates (agree : Agree now swept full) (principal : String)
    (org : Option Uuid) (policy : LimitPolicy) :
    swept.failedRates principal org policy now =
      full.failedRates principal org policy now := by
  unfold MemoryLimitStore.failedRates
  rw [failedRate_congr (agree.principals principal)]
  cases org with
  | none => rfl
  | some id =>
      dsimp only
      rw [failedRate_congr (agree.orgs id)]

theorem Agree.failedBudget (agree : Agree now swept full) (dated : IsDated now)
    (policy : LimitPolicy) (org : Option Uuid) :
    swept.failedBudget (appliedBudget policy org now) =
      full.failedBudget (appliedBudget policy org now) := by
  unfold MemoryLimitStore.failedBudget appliedBudget
  cases policy.budget with
  | none => rfl
  | some budget =>
      cases org with
      | none => rfl
      | some id =>
          dsimp only
          rw [agree.used id _
            (PeriodKey.nowSecs_lt_closesAt budget.period dated)]

/-- The entry that a commit or a charge changes. -/
def orgEntry (store : MemoryLimitStore) (id : Uuid) (now : SystemTime) :
    OrgState :=
  (store.orgs.lookup id).getD (.new now)

theorem orgEntry_window (store : MemoryLimitStore) (id : Uuid)
    (now : SystemTime) : (store.orgEntry id now).window = store.orgWindow id := by
  unfold orgEntry orgWindow
  cases store.orgs.lookup id with
  | none => rfl
  | some state => rfl

theorem orgEntry_used (store : MemoryLimitStore) (id : Uuid) (now : SystemTime)
    (key : PeriodKey) :
    ((store.orgEntry id now).used.lookup key).getD 0 =
      store.usedTokens id key := by
  unfold orgEntry usedTokens
  cases store.orgs.lookup id with
  | none => rfl
  | some state => rfl

/-- What an entry of a settled store satisfies. -/
structure OrgState.Settled (state : OrgState) (now : SystemTime) : Prop where
  afterEpoch : (0 : Int) ≤ state.lastTouch
  inOrder : state.window.window ≤ (WindowIndex.atInstant state.lastTouch).index
  touched : state.lastTouch ≤ now
  charged : ∀ key tokens, state.used.lookup key = some tokens →
    key.closesAt - PeriodKey.nowSecs now < 2 ^ 32

theorem Settled.orgEntry (settled : store.Settled now)
    (recent : (0 : Int) ≤ now) (id : Uuid) :
    OrgState.Settled (store.orgEntry id now) now := by
  unfold MemoryLimitStore.orgEntry
  cases found : store.orgs.lookup id with
  | none =>
      refine ⟨recent, Nat.zero_le _, le_rfl, ?_⟩
      intro key tokens used
      cases used
  | some state =>
      obtain ⟨afterEpoch, inOrder⟩ := settled.touched.orgs id state found
      obtain ⟨touched, charged⟩ := settled.orgs id state found
      exact ⟨afterEpoch, inOrder, touched, charged⟩

theorem OrgState.Settled.notAhead {state : OrgState}
    (settled : OrgState.Settled state now) :
    state.window.window ≤ (WindowIndex.atInstant now).index :=
  settled.inOrder.trans (WindowIndex.atInstant_index_mono settled.touched)

theorem orgWindow_insert (store : MemoryLimitStore) (id other : Uuid)
    (state : OrgState) :
    orgWindow { store with orgs := store.orgs.insert id state }
        other =
      if other = id then state.window else store.orgWindow other := by
  unfold orgWindow
  split
  case isTrue same =>
    rw [same, AList.lookup_insert]
    rfl
  case isFalse distinct => rw [AList.lookup_insert_ne distinct]

theorem usedTokens_insert (store : MemoryLimitStore) (id other : Uuid)
    (state : OrgState) (key : PeriodKey) :
    usedTokens
        { store with orgs := store.orgs.insert id state } other key =
      if other = id then (state.used.lookup key).getD 0
      else store.usedTokens other key := by
  unfold usedTokens
  split
  case isTrue same =>
    rw [same, AList.lookup_insert]
    rfl
  case isFalse distinct => rw [AList.lookup_insert_ne distinct]

/-- Both stores change the entry of one organization alike. -/
theorem Agree.insertOrg (agree : Agree now swept full) (id : Uuid)
    {left right : OrgState} (settled : OrgState.Settled left now)
    (windows : SlidingWindow.Alike now left.window right.window)
    (used : ∀ key, PeriodKey.nowSecs now < key.closesAt →
      (left.used.lookup key).getD 0 = (right.used.lookup key).getD 0) :
    Agree now { swept with orgs := swept.orgs.insert id left }
      { full with orgs := full.orgs.insert id right } := by
  refine ⟨⟨⟨agree.settled.touched.principals, ?_⟩, agree.settled.principals,
    ?_⟩, agree.principals, ?_, ?_⟩
  · intro other state found
    by_cases same : other = id
    · subst same
      rw [AList.lookup_insert] at found
      cases found
      exact ⟨settled.afterEpoch, settled.inOrder⟩
    · rw [AList.lookup_insert_ne same] at found
      exact agree.settled.touched.orgs other state found
  · intro other state found
    by_cases same : other = id
    · subst same
      rw [AList.lookup_insert] at found
      cases found
      exact ⟨settled.touched, settled.charged⟩
    · rw [AList.lookup_insert_ne same] at found
      exact agree.settled.orgs other state found
  · intro other
    rw [orgWindow_insert, orgWindow_insert]
    split
    case isTrue => exact windows
    case isFalse => exact agree.orgs other
  · intro other key isOpen
    rw [usedTokens_insert, usedTokens_insert]
    split
    case isTrue => exact used key isOpen
    case isFalse => exact agree.used other key isOpen

theorem Agree.commitPrincipal (agree : Agree now swept full)
    (recent : (0 : Int) ≤ now) (principal : String) (policy : LimitPolicy) :
    Agree now (swept.commitPrincipal principal policy now)
      (full.commitPrincipal principal policy now) := by
  unfold MemoryLimitStore.commitPrincipal
  split
  case isFalse => exact agree
  case isTrue =>
    have same := (agree.principals principal).commit
    have notAhead : (swept.principalWindow principal).window ≤
        (WindowIndex.atInstant now).index := by
      unfold principalWindow
      cases found : swept.principals.lookup principal with
      | none => exact Nat.zero_le _
      | some entry =>
          have forward := agree.settled.principals principal entry found
          exact (agree.settled.touched.principals principal entry found).2.trans
            (WindowIndex.atInstant_index_mono forward)
    refine ⟨⟨⟨?_, agree.settled.touched.orgs⟩, ?_, agree.settled.orgs⟩, ?_,
      agree.orgs, agree.used⟩
    · intro other entry found
      by_cases isSame : other = principal
      · subst isSame
        rw [AList.lookup_insert] at found
        cases found
        exact ⟨recent, by rw [SlidingWindow.commit_window_le _ _ notAhead]⟩
      · rw [AList.lookup_insert_ne isSame] at found
        exact agree.settled.touched.principals other entry found
    · intro other entry found
      by_cases isSame : other = principal
      · subst isSame
        rw [AList.lookup_insert] at found
        cases found
        exact le_rfl
      · rw [AList.lookup_insert_ne isSame] at found
        exact agree.settled.principals other entry found
    · intro other
      have alike := agree.principals other
      rw [same]
      unfold principalWindow at alike ⊢
      by_cases isSame : other = principal
      · subst isSame
        rw [AList.lookup_insert, AList.lookup_insert]
        exact .inl rfl
      · rw [AList.lookup_insert_ne isSame, AList.lookup_insert_ne isSame]
        exact alike

theorem Agree.commitOrg (agree : Agree now swept full)
    (recent : (0 : Int) ≤ now) (org : Option Uuid) (policy : LimitPolicy) :
    Agree now (swept.commitOrg org policy now)
      (full.commitOrg org policy now) := by
  unfold MemoryLimitStore.commitOrg
  split
  case h_1 id _ =>
    have settled := agree.settled.orgEntry recent id
    have alike : SlidingWindow.Alike now (swept.orgEntry id now).window
        (full.orgEntry id now).window := by
      rw [orgEntry_window, orgEntry_window]
      exact agree.orgs id
    apply agree.insertOrg id
    · refine ⟨recent, ?_, le_rfl, settled.charged⟩
      exact (SlidingWindow.commit_window_le _ _ settled.notAhead).le
    · exact .inl alike.commit
    · intro key isOpen
      have tokens := agree.used id key isOpen
      rw [← orgEntry_used swept id now, ← orgEntry_used full id now] at tokens
      exact tokens
  case h_2 => exact agree

theorem Agree.decided (agree : Agree now swept full) (dated : IsDated now)
    (principal : String) (org : Option Uuid) (policy : LimitPolicy) :
    (swept.decided principal org policy now).1 =
        (full.decided principal org policy now).1 ∧
      Agree now (swept.decided principal org policy now).2
        (full.decided principal org policy now).2 := by
  unfold MemoryLimitStore.decided
  dsimp only
  rw [agree.failedRates, agree.failedBudget dated]
  split
  case isTrue =>
    exact ⟨rfl,
      (agree.commitPrincipal dated.1 principal policy).commitOrg dated.1 org
        policy⟩
  case isFalse => exact ⟨rfl, agree⟩

theorem Agree.charge (agree : Agree now swept full) (dated : IsDated now)
    (ticket : LimitTicket) (tokens : Nat) :
    Agree now (swept.charge ticket tokens now)
      (full.charge ticket tokens now) := by
  unfold MemoryLimitStore.charge
  split
  case isTrue => exact agree
  case isFalse =>
    split
    case isTrue => exact agree
    case isFalse kept =>
      have lifetime : (BudgetPeriod.chargeTtl ticket.period now).isSome =
          true := by
        rw [Bool.not_eq_true, Option.isNone_eq_false_iff] at kept
        exact kept
      obtain ⟨isOpen, short⟩ :=
        (PeriodKey.chargeTtl_isSome ticket.period now).mp lifetime
      have settled := agree.settled.orgEntry dated.1 ticket.org
      have same : ∀ key, PeriodKey.nowSecs now < key.closesAt →
          ((swept.orgEntry ticket.org now).used.lookup key).getD 0 =
            ((full.orgEntry ticket.org now).used.lookup key).getD 0 := by
        intro key keyOpen
        rw [orgEntry_used, orgEntry_used]
        exact agree.used ticket.org key keyOpen
      apply agree.insertOrg ticket.org
      · refine ⟨dated.1, settled.notAhead, le_rfl, ?_⟩
        intro key held used
        by_cases isPeriod : key = ticket.period
        · rw [isPeriod]
          exact short
        · dsimp only at used
          rw [AList.lookup_insert_ne isPeriod] at used
          exact settled.charged key held used
      · have windows := agree.orgs ticket.org
        rw [← orgEntry_window swept _ now, ← orgEntry_window full _ now]
          at windows
        exact windows
      · intro key keyOpen
        dsimp only
        by_cases isPeriod : key = ticket.period
        · subst isPeriod
          rw [AList.lookup_insert, AList.lookup_insert]
          have held := same ticket.period isOpen
          unfold orgEntry at held
          rw [held]
        · rw [AList.lookup_insert_ne isPeriod, AList.lookup_insert_ne isPeriod]
          exact same key keyOpen

inductive StoreCall where
  | check (principal : String) (org : Option Uuid) (policy : LimitPolicy)
      (now : SystemTime)
  | charge (ticket : LimitTicket) (tokens : Nat) (now : SystemTime)

def StoreCall.instant : StoreCall → SystemTime
  | .check _ _ _ now => now
  | .charge _ _ now => now

/-- The decisions of the checks of a run, and the store it ends with. -/
def runCalls (check : MemoryLimitStore → String → Option Uuid → LimitPolicy →
      SystemTime → LimitDecision × MemoryLimitStore)
    (store : MemoryLimitStore) :
    List StoreCall → List LimitDecision × MemoryLimitStore
  | [] => ([], store)
  | .check principal org policy now :: rest =>
      let answer := check store principal org policy now
      let remaining := runCalls check answer.2 rest
      (answer.1 :: remaining.1, remaining.2)
  | .charge ticket tokens now :: rest =>
      runCalls check (store.charge ticket tokens now) rest

/-- A run of both stores keeps them in agreement. -/
theorem Agree.run {calls : List StoreCall} (agree : Agree now swept full)
    (ahead : ∀ call ∈ calls, now ≤ call.instant)
    (forward : calls.Pairwise fun earlier later => earlier.instant ≤ later.instant)
    (dated : ∀ call ∈ calls, IsDated call.instant) :
    (runCalls checkAndAdmit swept calls).1 =
        (runCalls checkUnswept full calls).1 ∧
      ∀ later, now ≤ later → (∀ call ∈ calls, call.instant ≤ later) →
        Agree later (runCalls checkAndAdmit swept calls).2
          (runCalls checkUnswept full calls).2 := by
  induction calls generalizing now swept full with
  | nil =>
      rw [runCalls, runCalls]
      refine ⟨rfl, ?_⟩
      intro later reached _
      exact agree.advance reached
  | cons call rest ih =>
      obtain ⟨restAhead, restForward⟩ := List.pairwise_cons.mp forward
      have callDated := dated call List.mem_cons_self
      have restDated : ∀ other ∈ rest, IsDated other.instant :=
        fun other member => dated other (List.mem_cons_of_mem _ member)
      have reached := agree.advance (ahead call List.mem_cons_self)
      cases call with
      | check principal org policy instant =>
          obtain ⟨same, next⟩ :=
            (reached.counted callDated).decided callDated principal org policy
          obtain ⟨decisions, ends⟩ := ih next restAhead restForward restDated
          refine ⟨congrArg₂ List.cons same decisions, ?_⟩
          intro later _ reaches
          apply ends later (reaches _ List.mem_cons_self)
          exact fun other member => reaches other (List.mem_cons_of_mem _ member)
      | charge ticket tokens instant =>
          obtain ⟨decisions, ends⟩ := ih
            (reached.charge callDated ticket tokens) restAhead restForward
            restDated
          refine ⟨decisions, ?_⟩
          intro later _ reaches
          apply ends later (reaches _ List.mem_cons_self)
          exact fun other member => reaches other (List.mem_cons_of_mem _ member)

/-- The sweep changes no decision, and nothing that a later check could read. -/
theorem sweep_is_invisible {calls : List StoreCall}
    (forward : calls.Pairwise fun earlier later => earlier.instant ≤ later.instant)
    (dated : ∀ call ∈ calls, IsDated call.instant) :
    (runCalls checkAndAdmit empty calls).1 =
        (runCalls checkUnswept empty calls).1 ∧
      ∀ later, IsDated later → (∀ call ∈ calls, call.instant ≤ later) →
        (∀ principal limit,
          ((runCalls checkAndAdmit empty calls).2.principalWindow
              principal).counts later limit =
            ((runCalls checkUnswept empty calls).2.principalWindow
              principal).counts later limit) ∧
        (∀ id limit,
          ((runCalls checkAndAdmit empty calls).2.orgWindow id).counts later
              limit =
            ((runCalls checkUnswept empty calls).2.orgWindow id).counts later
              limit) ∧
        ∀ id (period : BudgetPeriod),
          (runCalls checkAndAdmit empty calls).2.usedTokens id
              (period.keyAt later) =
            (runCalls checkUnswept empty calls).2.usedTokens id
              (period.keyAt later) := by
  have ahead : ∀ call ∈ calls, (0 : SystemTime) ≤ call.instant :=
    fun call member => (dated call member).1
  obtain ⟨decisions, ends⟩ := (agree_empty 0).run ahead forward dated
  refine ⟨decisions, ?_⟩
  intro later laterDated reaches
  have agree := ends later laterDated.1 reaches
  exact ⟨fun principal => (agree.principals principal).counts,
    fun id => (agree.orgs id).counts,
    fun id period =>
      agree.used id _ (PeriodKey.nowSecs_lt_closesAt period laterDated)⟩

section SampleRuns

def noLimits : LimitPolicy := ⟨none, none, none⟩

theorem one_inRange : 0 < 1 ∧ 1 ≤ U64.maxValue := by decide

def oneTokenADay : LimitPolicy :=
  ⟨none, none, some ⟨⟨1, one_inRange⟩, .daily⟩⟩

def quietCheck (now : SystemTime) : StoreCall := .check "bob" none noLimits now

/-- A request that fills the limit of one, 1022 requests without a limit, and
the request that sweeps. -/
def lonelyRun (first last : SystemTime) : List StoreCall :=
  .check "alice" none (rateOnly onePerMinute) first ::
    (List.replicate 1022 (quietCheck first) ++
      [.check "alice" none (rateOnly onePerMinute) last])

/-- A charge, 1023 requests without a limit, and the request that sweeps and
reads the budget. -/
def chargedRun (first last : SystemTime) : List StoreCall :=
  .charge ⟨7, BudgetPeriod.daily.keyAt first⟩ 10 first ::
    (List.replicate 1023 (quietCheck first) ++
      [.check "alice" (some 7) oneTokenADay last])

/-- Three minutes after the first request the window is gone, and the run shows
the same decision. -/
theorem sweep_is_invisible_sample :
    (runCalls checkAndAdmit empty (lonelyRun 0 180000000000)).1 =
      (runCalls checkUnswept empty (lonelyRun 0 180000000000)).1 := by
  have instants : ∀ call ∈ lonelyRun 0 180000000000,
      call.instant = 0 ∨ call.instant = 180000000000 := by
    intro call member
    rcases List.mem_cons.mp member with rfl | later
    · exact .inl rfl
    · rcases List.mem_append.mp later with quiet | last
      · rw [List.eq_of_mem_replicate quiet]
        exact .inl rfl
      · rw [List.mem_singleton.mp last]
        exact .inr rfl
  refine (sweep_is_invisible ?_ ?_).1
  · rw [lonelyRun, List.pairwise_cons, List.pairwise_append]
    refine ⟨?_, ?_, List.pairwise_singleton _ _, ?_⟩
    · intro call member
      rcases instants call (List.mem_cons_of_mem _ member) with isAt | isAt
      · exact isAt.symm.le
      · rw [isAt]
        decide
    · exact List.pairwise_replicate_of_refl
    · intro quiet isQuiet last isLast
      rw [List.eq_of_mem_replicate isQuiet, List.mem_singleton.mp isLast]
      decide
  · intro call member
    rcases instants call member with isAt | isAt
    · rw [isAt]
      decide
    · rw [isAt]
      decide

/-- A check that every request passes only counts, short of the sweep. -/
def OnlyCounts (check : MemoryLimitStore → String → Option Uuid →
    LimitPolicy → SystemTime → LimitDecision × MemoryLimitStore) : Prop :=
  ∀ store now, store.checks + 1 < sweepEvery →
    check store "bob" none noLimits now =
      (.admitted none, { store with checks := store.checks + 1 })

theorem checkUnswept_onlyCounts : OnlyCounts checkUnswept := by
  intro store now short
  have wraps : (store.checks + 1) % 2 ^ 64 = store.checks + 1 := by
    unfold sweepEvery at short
    omega
  have counts : store.countedOnly =
      { store with checks := store.checks + 1 } := by
    unfold countedOnly
    rw [wraps]
  unfold checkUnswept
  rw [counts]
  rfl

theorem checkAndAdmit_onlyCounts : OnlyCounts checkAndAdmit := by
  intro store now short
  have unswept : store.counted now = store.countedOnly := by
    unfold counted
    apply if_neg
    dsimp only
    unfold sweepEvery at short ⊢
    omega
  rw [checkAndAdmit_eq, unswept]
  exact checkUnswept_onlyCounts store now short

theorem runCalls_quiet {check : MemoryLimitStore → String → Option Uuid →
      LimitPolicy → SystemTime → LimitDecision × MemoryLimitStore}
    (onlyCounts : OnlyCounts check) (store : MemoryLimitStore)
    (now : SystemTime) (count : Nat) (rest : List StoreCall)
    (short : store.checks + count < sweepEvery) :
    (runCalls check store (List.replicate count (quietCheck now) ++ rest)).1 =
      List.replicate count (.admitted none) ++
        (runCalls check { store with checks := store.checks + count } rest).1 := by
  induction count generalizing store with
  | zero => rfl
  | succ count ih =>
      have step := onlyCounts store now (by omega)
      have remaining := ih { store with checks := store.checks + 1 } (by
        dsimp only
        omega)
      rw [List.replicate_succ, List.cons_append, quietCheck, runCalls, step]
      rw [List.replicate_succ, List.cons_append]
      dsimp only
      rw [← quietCheck, remaining]
      dsimp only
      rw [Nat.add_assoc, Nat.add_comm 1 count]

/-- Before the epoch every instant is in one window, and after the last date
every day is in one period: there the sweep is visible. -/
theorem sweep_is_visible :
    (runCalls checkAndAdmit empty (lonelyRun (-300000000000)
        (-100000000000))).1 ≠
      (runCalls checkUnswept empty (lonelyRun (-300000000000)
        (-100000000000))).1 ∧
    (runCalls checkAndAdmit empty (chargedRun (lastDateEnd - 1000000000)
        (lastDateEnd + 172800000000000))).1 ≠
      (runCalls checkUnswept empty (chargedRun (lastDateEnd - 1000000000)
        (lastDateEnd + 172800000000000))).1 := by
  constructor
  · rw [lonelyRun, runCalls, runCalls]
    dsimp only
    rw [runCalls_quiet checkAndAdmit_onlyCounts _ _ _ _ (by decide),
      runCalls_quiet checkUnswept_onlyCounts _ _ _ _ (by decide)]
    intro same
    obtain ⟨_, decisions⟩ := List.cons_eq_cons.mp same
    revert decisions
    rw [List.append_right_inj]
    decide
  · rw [chargedRun, runCalls, runCalls]
    rw [runCalls_quiet checkAndAdmit_onlyCounts _ _ _ _ (by decide),
      runCalls_quiet checkUnswept_onlyCounts _ _ _ _ (by decide)]
    intro same
    revert same
    rw [List.append_right_inj]
    decide

end SampleRuns

end MemoryLimitStore

end Paigasus.Gateway
