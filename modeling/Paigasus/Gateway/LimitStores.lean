import Paigasus.Gateway.MirroredWindow

/-!
# The two limit stores agree

The in-process store and the shared one, run on the same calls.  The rates are
mirrored window by window; the used tokens of a period are mirrored until it
takes no charge any more, or are out of reach of every budget in both stores.
The store that never sweeps stands between the two.
-/

namespace Paigasus.Gateway

open Foundation

/-- Every limit is one that the configuration accepts. -/
structure LimitPolicy.InBounds (policy : LimitPolicy) : Prop where
  principal : ∀ bound ∈ policy.principalRequestsPerMinute,
    bound.val ≤ maxRequestsPerMinute
  org : ∀ bound ∈ policy.orgRequestsPerMinute,
    bound.val ≤ maxRequestsPerMinute
  budget : ∀ budget ∈ policy.budget, budget.tokens.val ≤ maxTokensPerPeriod

instance (policy : LimitPolicy) : Decidable policy.InBounds :=
  decidable_of_iff
    ((∀ bound ∈ policy.principalRequestsPerMinute,
        bound.val ≤ maxRequestsPerMinute) ∧
      (∀ bound ∈ policy.orgRequestsPerMinute,
        bound.val ≤ maxRequestsPerMinute) ∧
      ∀ budget ∈ policy.budget, budget.tokens.val ≤ maxTokensPerPeriod)
    ⟨fun parts => ⟨parts.1, parts.2.1, parts.2.2⟩,
      fun inBounds => ⟨inBounds.principal, inBounds.org, inBounds.budget⟩⟩

namespace MemoryLimitStore

/-- The window of the organization of a request, if it names one. -/
def scopedWindow (store : MemoryLimitStore) (org : Option Uuid) :
    SlidingWindow :=
  (org.map store.orgWindow).getD .default

theorem failedRates_eq (store : MemoryLimitStore) (principal : String)
    (org : Option Uuid) (policy : LimitPolicy) (now : SystemTime) :
    store.failedRates principal org policy now =
      failedRate (store.principalWindow principal)
          policy.principalRequestsPerMinute now .principalRate ++
        failedRate (store.scopedWindow org)
          (org.bind fun _ => policy.orgRequestsPerMinute) now .orgRate := by
  cases org with
  | none => rfl
  | some id => rfl

theorem of_appliedBudget {policy : LimitPolicy} {org : Option Uuid}
    {now : SystemTime} {budget : Budget} {id : Uuid} {key : PeriodKey}
    (applied : appliedBudget policy org now =
      some (budget, id, key)) :
    policy.budget = some budget ∧ key = budget.period.keyAt now := by
  unfold appliedBudget at applied
  cases found : policy.budget with
  | none =>
      rw [found] at applied
      cases applied
  | some given =>
      rw [found] at applied
      cases org with
      | none => cases applied
      | some id =>
          cases applied
          exact ⟨rfl, rfl⟩

theorem decided_state (store : MemoryLimitStore) (principal : String)
    (org : Option Uuid) (policy : LimitPolicy) (now : SystemTime) :
    (store.decided principal org policy now).2 =
      if (store.failedRates principal org policy now ++ store.failedBudget
          (appliedBudget policy org now)).isEmpty then
        (store.commitPrincipal principal policy now).commitOrg org policy now
      else store := by
  unfold decided
  dsimp only
  split
  case isTrue => rfl
  case isFalse => rfl

theorem principalWindow_commitPrincipal (store : MemoryLimitStore)
    (principal other : String) {policy : LimitPolicy} {now : SystemTime}
    (limited : policy.principalRequestsPerMinute.isSome = true) :
    (store.commitPrincipal principal policy now).principalWindow other =
      if other = principal then (store.principalWindow principal).commit now
      else store.principalWindow other := by
  unfold commitPrincipal
  rw [if_pos limited]
  unfold principalWindow
  split
  case isTrue same =>
    rw [same, AList.lookup_insert]
    rfl
  case isFalse distinct => rw [AList.lookup_insert_ne distinct]

end MemoryLimitStore

/-- No budget tells the two amounts apart. -/
def AlikeUsed (used count : Nat) : Prop :=
  used = count ∨ maxTokensPerPeriod ≤ used ∧ maxTokensPerPeriod ≤ count

theorem AlikeUsed.le_iff {used count limit : Nat} (alike : AlikeUsed used count)
    (within : limit ≤ maxTokensPerPeriod) : limit ≤ used ↔ limit ≤ count := by
  unfold AlikeUsed at alike
  omega

/-- One store stops at the largest count, the other before it. -/
theorem AlikeUsed.charge {used count next tokens : Nat}
    (alike : AlikeUsed used count) (small : tokens ≤ maxTokensPerCharge)
    (inRange : next < 2 ^ 63)
    (counted : next = count + tokens ∨
      next = count ∧ 2 ^ 63 ≤ count + tokens) :
    AlikeUsed (U64.saturatingAdd used tokens) next := by
  unfold AlikeUsed U64.saturatingAdd U64.maxValue maxTokensPerPeriod
    maxTokensPerCharge at *
  omega

/-- The database holds the counts of a store that never sweeps. -/
structure Mirrors (now : SystemTime) (store : MemoryLimitStore)
    (database : Redis) : Prop where
  principals : ∀ principal,
    MirrorsWindow now (store.principalWindow principal) database
      (RedisLimitStore.principalRateKey principal)
  orgs : ∀ id, MirrorsWindow now (store.orgWindow id) database
    (RedisLimitStore.orgRateKey id)
  used : ∀ id key, ∃ count, count < 2 ^ 63 ∧
    AlikeUsed (store.usedTokens id key) count ∧
    database.Keeps (RedisLimitStore.budgetKey id key) (1000 * key.closesAt)
      count

theorem mirrors_empty (now : SystemTime) : Mirrors now .empty ∅ where
  principals _ := mirrorsWindow_empty now _
  orgs _ := mirrorsWindow_empty now _
  used _ _ := ⟨0, by decide, .inl rfl, .inl ⟨AList.lookup_empty _, rfl⟩⟩

namespace Mirrors

open RedisLimitStore

variable {now later : SystemTime} {store : MemoryLimitStore}
  {database : Redis} {principal : String} {org : Option Uuid}
  {policy : LimitPolicy}

theorem advance (mirrors : Mirrors now store database)
    (forward : now ≤ later) : Mirrors later store database where
  principals principal := (mirrors.principals principal).advance forward
  orgs id := (mirrors.orgs id).advance forward
  used := mirrors.used

/-- The amount a check reads under the key of the current period. -/
theorem counts_used (mirrors : Mirrors now store database)
    (dated : IsDated now) (id : Uuid) (period : BudgetPeriod) :
    ∃ count, count < 2 ^ 63 ∧
      AlikeUsed (store.usedTokens id (period.keyAt now)) count ∧
      database.Counts (unixMs now) (budgetKey id (period.keyAt now)) count := by
  obtain ⟨count, inRange, alike, keeps⟩ := mirrors.used id (period.keyAt now)
  refine ⟨count, inRange, alike, keeps.counts ?_⟩
  have isOpen := PeriodKey.nowSecs_lt_closesAt period dated
  have inSecond := (MemoryLimitStore.nowSecs_bounds dated).2.1
  omega

/-! ## The decision -/

theorem failedBudget_budgetOf {count : Nat}
    (applied : Option (Budget × Uuid × PeriodKey))
    (alike : ∀ budget id key, applied = some (budget, id, key) →
      budget.tokens.val ≤ maxTokensPerPeriod ∧
        AlikeUsed (store.usedTokens id key) count) :
    budgetFailure (AdmissionScript.flag (AdmissionScript.budgetOf
        (applied.map fun (budget, _) => budget.tokens) count).1) applied =
      store.failedBudget applied ∧
    (AdmissionScript.budgetOf
        (applied.map fun (budget, _) => budget.tokens) count).1 =
      (store.failedBudget applied).isEmpty := by
  rw [budgetFailure_budgetOf]
  unfold MemoryLimitStore.failedBudget AdmissionScript.budgetOf
  cases applied with
  | none => exact ⟨rfl, rfl⟩
  | some budget =>
      obtain ⟨budget, id, key⟩ := budget
      obtain ⟨within, same⟩ := alike budget id key rfl
      have used := same.le_iff within
      dsimp only
      simp only [← used, Option.map_some]
      refine ⟨trivial, ?_⟩
      by_cases spent : budget.tokens.val ≤ store.usedTokens id key
      · rw [if_pos spent]
        simpa using used.mp spent
      · rw [if_neg spent]
        simpa using fun reached => spent (used.mpr reached)

theorem orgRate (mirrors : Mirrors now store database)
    (begun : 1 ≤ (WindowIndex.atInstant now).index) (org : Option Uuid)
    (limit : Option NonZeroU64)
    (within : ∀ bound ∈ limit, bound.val ≤ maxRequestsPerMinute) :
    AdmissionScript.rate database (unixMs now)
        (AdmissionScript.clamp (.ofInt (WindowIndex.atInstant now).elapsedMs))
        (orgKeyOrNone org (WindowIndex.atInstant now).index)
        (orgKeyOrNone org ((WindowIndex.atInstant now).index - 1))
        (limitArg (org.bind fun _ => limit)) =
      .ok (AdmissionScript.rateOf (org.bind fun _ => limit)
        ((store.scopedWindow org).counts now)) := by
  cases org with
  | none => rfl
  | some id => exact (mirrors.orgs id).rate begun limit within

theorem orgFailure (mirrors : Mirrors now store database)
    (begun : 1 ≤ (WindowIndex.atInstant now).index) (org : Option Uuid)
    (limit : Option NonZeroU64) :
    rateFailure
        (AdmissionScript.flag (AdmissionScript.rateOf
          (org.bind fun _ => limit) ((store.scopedWindow org).counts now)).ok)
        (org.bind fun _ => limit)
        (AdmissionScript.wireInteger (AdmissionScript.rateOf
          (org.bind fun _ => limit)
          ((store.scopedWindow org).counts now)).previous)
        (AdmissionScript.wireInteger (AdmissionScript.rateOf
          (org.bind fun _ => limit)
          ((store.scopedWindow org).counts now)).current)
        (WindowIndex.atInstant now) .orgRate =
      .ok (MemoryLimitStore.failedRate (store.scopedWindow org)
        (org.bind fun _ => limit) now .orgRate) := by
  cases org with
  | none => rfl
  | some id => exact (mirrors.orgs id).rateFailure begun limit .orgRate

/-- The reply to a request whose counts the store has. -/
def replyTo (store : MemoryLimitStore) (principal : String)
    (org : Option Uuid) (policy : LimitPolicy) (now : SystemTime)
    (used : Nat) : AdmissionScript.Reply :=
  let ofPrincipal := AdmissionScript.rateOf policy.principalRequestsPerMinute
    ((store.principalWindow principal).counts now)
  let ofOrg := AdmissionScript.rateOf
    (org.bind fun _ => policy.orgRequestsPerMinute)
    ((store.scopedWindow org).counts now)
  let ofBudget := AdmissionScript.budgetOf
    ((MemoryLimitStore.appliedBudget policy org now).map
      fun (budget, _) => budget.tokens) used
  ⟨ofPrincipal.ok && ofOrg.ok && ofBudget.1, ofPrincipal, ofOrg, ofBudget.1,
    ofBudget.2⟩

/-- No budget tells the amount from the used tokens of the applied period. -/
def BudgetAlike (store : MemoryLimitStore) (org : Option Uuid)
    (policy : LimitPolicy) (now : SystemTime) (used : Nat) : Prop :=
  ∀ budget id key,
    MemoryLimitStore.appliedBudget policy org now = some (budget, id, key) →
      budget.tokens.val ≤ maxTokensPerPeriod ∧
        AlikeUsed (store.usedTokens id key) used

/-- The script's check of the budget. -/
theorem budget (mirrors : Mirrors now store database) (dated : IsDated now)
    (inBounds : policy.InBounds) (principal : String) (org : Option Uuid) :
    ∃ used, BudgetAlike store org policy now used ∧
      AdmissionScript.budget database (unixMs now)
          (admissionKeys principal org policy now).budget
          (admissionArgs org policy now).budgetLimit =
        .ok (AdmissionScript.budgetOf
          ((MemoryLimitStore.appliedBudget policy org now).map
            fun (budget, _) => budget.tokens) used) := by
  unfold BudgetAlike admissionKeys admissionArgs
  dsimp only
  cases applied : MemoryLimitStore.appliedBudget policy org now with
  | none =>
      refine ⟨0, ?_, rfl⟩
      intro budget id key same
      cases same
  | some triple =>
      obtain ⟨budget, id, key⟩ := triple
      obtain ⟨isBudget, rfl⟩ := MemoryLimitStore.of_appliedBudget applied
      have within := inBounds.budget budget isBudget
      obtain ⟨used, inRange, alike, counts⟩ :=
        mirrors.counts_used dated id budget.period
      refine ⟨used, ?_, ?_⟩
      · intro other otherId otherKey same
        cases same
        exact ⟨within, alike⟩
      · apply AdmissionScript.budget_of_counts _ (by omega)
        intro bound isBound
        cases isBound
        exact ⟨within, counts⟩

theorem readPhase_eq (mirrors : Mirrors now store database)
    (dated : IsDated now) (begun : 1 ≤ (WindowIndex.atInstant now).index)
    (inBounds : policy.InBounds) (principal : String) (org : Option Uuid) :
    ∃ used, BudgetAlike store org policy now used ∧
      AdmissionScript.readPhase database (unixMs now)
          (admissionKeys principal org policy now)
          (admissionArgs org policy now) =
        .ok (replyTo store principal org policy now used) := by
  have elapsed := AdmissionScript.argument_toString
    (WindowIndex.atInstant now).elapsedMs
  have ofPrincipal := (mirrors.principals principal).rate begun
    policy.principalRequestsPerMinute inBounds.principal
  have ofOrg := mirrors.orgRate begun org policy.orgRequestsPerMinute
    inBounds.org
  obtain ⟨used, alike, ofBudget⟩ := mirrors.budget dated inBounds principal org
  refine ⟨used, alike, ?_⟩
  unfold AdmissionScript.readPhase
  apply bind_ok.mpr ⟨_, elapsed, ?_⟩
  apply bind_ok.mpr ⟨_, ofPrincipal, ?_⟩
  apply bind_ok.mpr ⟨_, ofOrg, ?_⟩
  exact bind_ok.mpr ⟨_, ofBudget, rfl⟩

theorem admitted_eq (principal : String) {used : Nat}
    (alike : BudgetAlike store org policy now used) :
    (replyTo store principal org policy now used).admitted =
      (store.failedRates principal org policy now ++
        store.failedBudget
          (MemoryLimitStore.appliedBudget policy org now)).isEmpty := by
  have both {α : Type} (left right : List α) :
      (left ++ right).isEmpty = (left.isEmpty && right.isEmpty) := by
    cases left with
    | nil => rfl
    | cons head rest => rfl
  rw [MemoryLimitStore.failedRates_eq, both, both, failedRate_isEmpty,
    failedRate_isEmpty, ← (failedBudget_budgetOf _ alike).2]
  rfl

theorem decisionFromReply_eq (mirrors : Mirrors now store database)
    (begun : 1 ≤ (WindowIndex.atInstant now).index) (principal : String)
    {used : Nat} (alike : BudgetAlike store org policy now used) :
    decisionFromReply (replyTo store principal org policy now used).wire
        (WindowIndex.atInstant now) policy.principalRequestsPerMinute
        (org.bind fun _ => policy.orgRequestsPerMinute)
        (MemoryLimitStore.appliedBudget policy org now) =
      .ok (store.decided principal org policy now).1 := by
  have ofPrincipal := (mirrors.principals principal).rateFailure begun
    policy.principalRequestsPerMinute .principalRate
  have ofOrg := mirrors.orgFailure begun org policy.orgRequestsPerMinute
  have ofBudget := (failedBudget_budgetOf _ alike).1
  have admitted := admitted_eq principal alike
  unfold decisionFromReply MemoryLimitStore.decided
  dsimp only
  rw [← admitted]
  rw [MemoryLimitStore.failedRates_eq]
  cases passes : (replyTo store principal org policy now used).admitted with
  | true =>
      dsimp only [AdmissionScript.Reply.wire]
      rw [if_pos ((flag_eq_one _).mpr passes)]
      rfl
  | false =>
      dsimp only [AdmissionScript.Reply.wire]
      rw [if_neg (by rw [flag_eq_one, passes]; exact Bool.false_ne_true)]
      unfold replyTo at ofBudget ⊢
      dsimp only
      rw [ofPrincipal, ofOrg, ofBudget]
      rfl

/-! ## The counts after a decision -/

/-- A principal is counted under its current key. -/
theorem commitPrincipal (mirrors : Mirrors now store database)
    (dated : IsDated now) (begun : 1 ≤ (WindowIndex.atInstant now).index)
    (inBounds : policy.InBounds)
    (passed : ∀ limit ∈ policy.principalRequestsPerMinute,
      ((store.principalWindow principal).counts now limit).admits = true) :
    ∃ after writes,
      AdmissionScript.countLimited (unixMs now)
          (Lua.tonumber (toString rateKeyTtlSecs))
          (limitArg policy.principalRequestsPerMinute)
          (principalRateKey principal (WindowIndex.atInstant now).index)
          database = (after, writes, none) ∧
        Mirrors now (store.commitPrincipal principal policy now) after := by
  cases limited : policy.principalRequestsPerMinute with
  | none =>
      refine ⟨database, [], rfl, ?_⟩
      unfold MemoryLimitStore.commitPrincipal
      rw [limited]
      exact mirrors
  | some limit =>
      have isLimited : policy.principalRequestsPerMinute.isSome = true := by
        rw [limited]
        rfl
      have sameOrgs : (store.commitPrincipal principal policy now).orgs =
          store.orgs := by
        unfold MemoryLimitStore.commitPrincipal
        rw [if_pos isLimited]
      obtain ⟨after, writes, accepted, window, others⟩ :=
        (mirrors.principals principal).count dated begun
          (inBounds.principal limit limited) (passed limit limited)
          fun _ _ same => (principalRateKey_inj same).2
      refine ⟨after, writes, accepted, ?_, ?_, ?_⟩
      · intro other
        rw [MemoryLimitStore.principalWindow_commitPrincipal store principal
          other isLimited]
        split
        case isTrue same =>
          subst same
          exact window
        case isFalse distinct =>
          apply (mirrors.principals other).frame
          intro index
          apply others
          exact fun same => distinct (principalRateKey_inj same).1
      · intro id
        unfold MemoryLimitStore.orgWindow
        rw [sameOrgs]
        apply (mirrors.orgs id).frame
        intro index
        apply others
        exact (principalRateKey_ne_orgRateKey _ _ _ _).symm
      · intro id key
        obtain ⟨used, inRange, alike, keeps⟩ := mirrors.used id key
        refine ⟨used, inRange, ?_, ?_⟩
        · unfold MemoryLimitStore.usedTokens at alike ⊢
          rw [sameOrgs]
          exact alike
        · apply (Redis.Keeps.congr (others _ ?_)).mpr keeps
          exact (budgetKey_ne id key).1 _ _

/-- An organization is counted under its current key. -/
theorem commitOrg (mirrors : Mirrors now store database)
    (dated : IsDated now) (begun : 1 ≤ (WindowIndex.atInstant now).index)
    (inBounds : policy.InBounds)
    (passed : ∀ limit ∈ org.bind fun _ => policy.orgRequestsPerMinute,
      ((store.scopedWindow org).counts now limit).admits = true) :
    ∃ after writes,
      AdmissionScript.countLimited (unixMs now)
          (Lua.tonumber (toString rateKeyTtlSecs))
          (limitArg (org.bind fun _ => policy.orgRequestsPerMinute))
          (orgKeyOrNone org (WindowIndex.atInstant now).index)
          database = (after, writes, none) ∧
        Mirrors now (store.commitOrg org policy now) after := by
  unfold MemoryLimitStore.commitOrg
  cases org with
  | none =>
      refine ⟨database, [], rfl, ?_⟩
      cases policy.orgRequestsPerMinute with
      | none => exact mirrors
      | some limit => exact mirrors
  | some id =>
      cases limited : policy.orgRequestsPerMinute with
      | none => exact ⟨database, [], rfl, mirrors⟩
      | some limit =>
          have passes := passed limit limited
          obtain ⟨after, writes, accepted, window, others⟩ :=
            (mirrors.orgs id).count dated begun
              (inBounds.org limit limited) passes
              fun _ _ same => (orgRateKey_inj same).2
          refine ⟨after, writes, accepted, ?_, ?_, ?_⟩
          · intro other
            apply (mirrors.principals other).frame
            intro index
            apply others
            exact principalRateKey_ne_orgRateKey _ _ _ _
          · intro other
            rw [MemoryLimitStore.orgWindow_insert]
            split
            case isTrue same =>
              subst same
              rw [← MemoryLimitStore.orgEntry_window store other now] at window
              exact window
            case isFalse distinct =>
              apply (mirrors.orgs other).frame
              intro index
              apply others
              exact fun same => distinct (orgRateKey_inj same).1
          · intro other key
            obtain ⟨used, inRange, alike, keeps⟩ := mirrors.used other key
            refine ⟨used, inRange, ?_, ?_⟩
            · rw [MemoryLimitStore.usedTokens_insert]
              split
              case isTrue same =>
                subst same
                rw [← MemoryLimitStore.orgEntry_used store other now] at alike
                exact alike
              case isFalse => exact alike
            · apply (Redis.Keeps.congr (others _ ?_)).mpr keeps
              exact (budgetKey_ne other key).2 _ _

/-- The amount of the charged period, and of every other one. -/
theorem charge_used (mirrors : Mirrors now store database)
    (dated : IsDated now) {ticket : LimitTicket} {seconds tokens : Nat}
    (small : tokens ≤ maxTokensPerCharge)
    (lifetime : BudgetPeriod.chargeTtl ticket.period now = some seconds) :
    ∃ count, count < 2 ^ 63 ∧
      AlikeUsed (U64.saturatingAdd (store.usedTokens ticket.org ticket.period)
        tokens) count ∧
      (database.incrByExpire (unixMs now)
          (budgetKey ticket.org ticket.period) tokens seconds).Keeps
        (budgetKey ticket.org ticket.period)
        (1000 * ticket.period.closesAt) count := by
  obtain ⟨isLifetime, positive⟩ := PeriodKey.chargeTtl_eq_some lifetime
  obtain ⟨started, before, _⟩ := MemoryLimitStore.nowSecs_bounds dated
  obtain ⟨count, inRange, alike, keeps⟩ :=
    mirrors.used ticket.org ticket.period
  have counts : database.Counts (unixMs now)
      (budgetKey ticket.org ticket.period) count :=
    keeps.counts (by omega)
  have tokensSmall : tokens < 2 ^ 63 := by
    unfold maxTokensPerCharge at small
    omega
  obtain ⟨next, counted, nextInRange, found⟩ :=
    counts.incrByExpire inRange tokensSmall
      (show (0 : Int) < seconds by omega)
  refine ⟨next, nextInRange, alike.charge small nextInRange counted, ?_⟩
  exact Redis.keeps_of_lookup (by omega) found

/-- A charge raises the amount of its period in both stores. -/
theorem charge (mirrors : Mirrors now store database) (dated : IsDated now)
    (ticket : LimitTicket) (tokens : Nat) :
    Mirrors now (store.charge ticket tokens now)
      (RedisLimitStore.applyCharge database ticket tokens now) := by
  unfold MemoryLimitStore.charge RedisLimitStore.applyCharge
  dsimp only
  by_cases nothing : tokens = 0
  · rw [if_pos nothing, if_pos (by omega)]
    exact mirrors
  · have positive : min tokens maxTokensPerCharge ≠ 0 := by
      unfold maxTokensPerCharge
      omega
    rw [if_neg nothing, if_neg positive]
    cases lifetime : BudgetPeriod.chargeTtl ticket.period now with
    | none => exact mirrors
    | some seconds =>
        have small := Nat.min_le_right tokens maxTokensPerCharge
        have charged := mirrors.charge_used dated small lifetime
        generalize min tokens maxTokensPerCharge = amount at *
        have others (other : String)
            (distinct : other ≠ budgetKey ticket.org ticket.period) :
            (database.incrByExpire (unixMs now)
                (budgetKey ticket.org ticket.period) amount seconds).lookup
                  other =
              database.lookup other :=
          Redis.lookup_incrByExpire_of_ne distinct amount seconds
        rw [if_neg (by simp)]
        refine ⟨?_, ?_, ?_⟩
        · intro principal
          apply (mirrors.principals principal).frame
          intro index
          apply others
          exact ((budgetKey_ne _ _).1 _ _).symm
        · intro id
          have window : MirrorsWindow now (store.orgWindow id)
              (database.incrByExpire (unixMs now)
                (budgetKey ticket.org ticket.period) amount seconds)
              (orgRateKey id) := by
            apply (mirrors.orgs id).frame
            intro index
            apply others
            exact ((budgetKey_ne _ _).2 _ _).symm
          rw [MemoryLimitStore.orgWindow_insert]
          split
          case isTrue same =>
            subst same
            rw [← MemoryLimitStore.orgEntry_window store _ now] at window
            exact window
          case isFalse => exact window
        · intro id key
          rw [MemoryLimitStore.usedTokens_insert]
          by_cases charges : id = ticket.org ∧ key = ticket.period
          · obtain ⟨rfl, rfl⟩ := charges
            rw [if_pos rfl, AList.lookup_insert, Option.getD_some]
            rw [← MemoryLimitStore.orgEntry_used store _ now] at charged
            exact charged
          · obtain ⟨count, inRange, alike, keeps⟩ := mirrors.used id key
            have distinct : budgetKey id key ≠
                budgetKey ticket.org ticket.period :=
              fun same => charges (budgetKey_inj same)
            refine ⟨count, inRange, ?_,
              (Redis.Keeps.congr (others _ distinct)).mpr keeps⟩
            split
            case isTrue same =>
              subst same
              have otherKey : key ≠ ticket.period :=
                fun same => charges ⟨rfl, same⟩
              rw [← MemoryLimitStore.orgEntry_used store _ now] at alike
              dsimp only
              rw [AList.lookup_insert_ne otherKey]
              exact alike
            case isFalse => exact alike

theorem countedOnly (mirrors : Mirrors now store database) :
    Mirrors now store.countedOnly database :=
  ⟨mirrors.principals, mirrors.orgs, mirrors.used⟩

theorem admits_of_ok {limit : Option NonZeroU64}
    {counts : NonZeroU64 → RateCounts}
    (passed : (AdmissionScript.rateOf limit counts).ok = true) :
    ∀ bound ∈ limit, (counts bound).admits = true := by
  intro bound isLimit
  obtain rfl := Option.mem_def.mp isLimit
  unfold AdmissionScript.rateOf at passed
  dsimp only at passed
  exact passed

/-- An admitted request is counted in both dimensions. -/
theorem admission (mirrors : Mirrors now store database)
    (dated : IsDated now) (begun : 1 ≤ (WindowIndex.atInstant now).index)
    (inBounds : policy.InBounds) {reply : AdmissionScript.Reply}
    (read : AdmissionScript.readPhase database (unixMs now)
      (admissionKeys principal org policy now)
      (admissionArgs org policy now) = .ok reply)
    (admitted : reply.admitted = true)
    (ofPrincipal : ∀ limit ∈ policy.principalRequestsPerMinute,
      ((store.principalWindow principal).counts now limit).admits = true)
    (ofOrg : ∀ limit ∈ org.bind fun _ => policy.orgRequestsPerMinute,
      ((store.scopedWindow org).counts now limit).admits = true) :
    ∃ after writes,
      AdmissionScript.admission database (unixMs now)
          (admissionKeys principal org policy now)
          (admissionArgs org policy now) = ⟨after, writes, .ok reply⟩ ∧
        Mirrors now ((store.commitPrincipal principal policy now).commitOrg org
          policy now) after := by
  obtain ⟨middle, first, accepted, next⟩ :=
    mirrors.commitPrincipal dated begun inBounds ofPrincipal
  have sameOrg : (store.commitPrincipal principal policy now).scopedWindow org =
      store.scopedWindow org := by
    unfold MemoryLimitStore.scopedWindow MemoryLimitStore.commitPrincipal
    split
    case isTrue => rfl
    case isFalse => rfl
  rw [← sameOrg] at ofOrg
  obtain ⟨after, second, acceptedOrg, last⟩ :=
    next.commitOrg dated begun inBounds ofOrg
  refine ⟨after, first ++ second, ?_, last⟩
  rw [AdmissionScript.admission_of_admitted read admitted]
  unfold admissionKeys admissionArgs
  dsimp only
  rw [accepted]
  unfold AdmissionScript.Run.ofCounts
  dsimp only
  rw [acceptedOrg]

/-- The script decides as the store does, and mirrors what the store counts. -/
theorem checkAndAdmit (mirrors : Mirrors now store database)
    (dated : IsDated now) (begun : 1 ≤ (WindowIndex.atInstant now).index)
    (inBounds : policy.InBounds) (principal : String) (org : Option Uuid) :
    (RedisLimitStore.checkAndAdmit database principal org policy now).1 =
        .ok (store.decided principal org policy now).1 ∧
      Mirrors now (store.decided principal org policy now).2
        (RedisLimitStore.checkAndAdmit database principal org policy now).2 := by
  obtain ⟨used, alike, read⟩ :=
    mirrors.readPhase_eq dated begun inBounds principal org
  have decision := mirrors.decisionFromReply_eq begun principal alike
  have isAdmitted := admitted_eq principal alike
  have state : (store.decided principal org policy now).2 =
      if (replyTo store principal org policy now used).admitted then
        (store.commitPrincipal principal policy now).commitOrg org policy now
      else store := by
    rw [isAdmitted]
    exact MemoryLimitStore.decided_state store principal org policy now
  unfold RedisLimitStore.checkAndAdmit
  rw [state]
  cases admitted : (replyTo store principal org policy now used).admitted with
  | false =>
      rw [AdmissionScript.admission_of_refusal read admitted]
      exact ⟨decision, mirrors⟩
  | true =>
      have parts := admitted
      unfold replyTo at parts
      simp only [Bool.and_eq_true] at parts
      obtain ⟨after, writes, ran, next⟩ := mirrors.admission dated begun
        inBounds read admitted (admits_of_ok parts.1.1)
        (admits_of_ok parts.1.2)
      rw [ran]
      exact ⟨decision, next⟩

end Mirrors

namespace RedisLimitStore

/-- The decisions of the checks of a run. -/
def runCalls (database : Redis) :
    List MemoryLimitStore.StoreCall →
      List (Except LimitStoreError LimitDecision)
  | [] => []
  | .check principal org policy now :: rest =>
      let answer := checkAndAdmit database principal org policy now
      answer.1 :: runCalls answer.2 rest
  | .charge ticket tokens now :: rest =>
      runCalls (applyCharge database ticket tokens now) rest

end RedisLimitStore

/-- A check is made against limits that the configuration accepts. -/
def MemoryLimitStore.StoreCall.InBounds : StoreCall → Prop
  | .check _ _ policy _ => policy.InBounds
  | .charge _ _ _ => True

instance (call : MemoryLimitStore.StoreCall) : Decidable call.InBounds :=
  match call with
  | .check _ _ policy _ => inferInstanceAs (Decidable policy.InBounds)
  | .charge _ _ _ => inferInstanceAs (Decidable True)

namespace Mirrors

variable {now : SystemTime} {store : MemoryLimitStore} {database : Redis}

theorem run {calls : List MemoryLimitStore.StoreCall}
    (mirrors : Mirrors now store database)
    (ahead : ∀ call ∈ calls, now ≤ call.instant)
    (forward : calls.Pairwise fun earlier later =>
      earlier.instant ≤ later.instant)
    (dated : ∀ call ∈ calls, IsDated call.instant)
    (begun : ∀ call ∈ calls, 1 ≤ (WindowIndex.atInstant call.instant).index)
    (inBounds : ∀ call ∈ calls, call.InBounds) :
    RedisLimitStore.runCalls database calls =
      (MemoryLimitStore.runCalls MemoryLimitStore.checkUnswept store
        calls).1.map .ok := by
  induction calls generalizing now store database with
  | nil => rfl
  | cons call rest ih =>
      obtain ⟨restAhead, restForward⟩ := List.pairwise_cons.mp forward
      have reached := mirrors.advance (ahead call List.mem_cons_self)
      obtain ⟨callDated, restDated⟩ := List.forall_mem_cons.mp dated
      obtain ⟨callBegun, restBegun⟩ := List.forall_mem_cons.mp begun
      obtain ⟨callInBounds, restInBounds⟩ := List.forall_mem_cons.mp inBounds
      cases call with
      | check principal org policy instant =>
          obtain ⟨decision, next⟩ := reached.countedOnly.checkAndAdmit
            callDated callBegun callInBounds principal org
          have remaining :=
            ih next restAhead restForward restDated restBegun restInBounds
          exact congrArg₂ List.cons decision remaining
      | charge ticket tokens instant =>
          exact ih (reached.charge callDated ticket tokens) restAhead
            restForward restDated restBegun restInBounds

end Mirrors

/-- On calls after the first minute of the epoch and before the end of the last
date both adapters decide alike. -/
theorem limitStores_agree {calls : List MemoryLimitStore.StoreCall}
    (forward : calls.Pairwise fun earlier later =>
      earlier.instant ≤ later.instant)
    (begun : ∀ call ∈ calls, 1 ≤ (WindowIndex.atInstant call.instant).index)
    (onDates : ∀ call ∈ calls, call.instant < lastDateEnd)
    (inBounds : ∀ call ∈ calls, call.InBounds) :
    RedisLimitStore.runCalls ∅ calls =
      (MemoryLimitStore.runCalls MemoryLimitStore.checkAndAdmit .empty
        calls).1.map .ok := by
  have dated : ∀ call ∈ calls, IsDated call.instant := by
    intro call member
    refine ⟨?_, onDates call member⟩
    have positive := begun call member
    unfold WindowIndex.atInstant unixMs rateWindowMs at positive
    by_contra before
    have isZero : call.instant.toNat = 0 := by
      unfold SystemTime at *
      omega
    rw [isZero] at positive
    cases positive
  have ahead : ∀ call ∈ calls, (0 : SystemTime) ≤ call.instant :=
    fun call member => (dated call member).1
  obtain ⟨decisions, _⟩ :=
    (MemoryLimitStore.agree_empty 0).run ahead forward dated
  rw [decisions]
  exact (mirrors_empty 0).run ahead forward dated begun inBounds

section SampleRuns

theorem two_inRange : 0 < 2 ∧ 2 ≤ U64.maxValue := by decide

theorem ten_inRange : 0 < 10 ∧ 10 ≤ U64.maxValue := by decide

/-- One request a minute for the principal, two for the organization, and ten
tokens a day. -/
def tight : LimitPolicy where
  principalRequestsPerMinute := some ⟨1, MemoryLimitStore.one_inRange⟩
  orgRequestsPerMinute := some ⟨2, two_inRange⟩
  budget := some ⟨⟨10, ten_inRange⟩, .daily⟩

/-- Two requests of the second minute, a charge, and one in the fourth. -/
def tightRun : List MemoryLimitStore.StoreCall :=
  [.check "alice" (some 7) tight 60000000000,
    .check "alice" (some 7) tight 90000000000,
    .charge ⟨7, BudgetPeriod.daily.keyAt 60000000000⟩ 10 100000000000,
    .check "alice" (some 7) tight 240000000000]

theorem limitStores_agree_sample :
    RedisLimitStore.runCalls ∅ tightRun =
      (MemoryLimitStore.runCalls MemoryLimitStore.checkAndAdmit .empty
        tightRun).1.map .ok :=
  limitStores_agree (by decide) (by decide) (by decide) (by decide)

/-- The first request is admitted; the second exceeds the principal's rate, the
last the budget. -/
example : (MemoryLimitStore.runCalls MemoryLimitStore.checkAndAdmit .empty
      tightRun).1 =
    [.admitted (some ⟨7, BudgetPeriod.daily.keyAt 0⟩),
      .refused [.principalRate ⟨0, 1, 30000, 1⟩],
      .refused [.budget .daily 86400]] := by
  decide +kernel

/-- A charge in the last second of the last date, and a check two days later. -/
def lateRun : List MemoryLimitStore.StoreCall :=
  [.charge ⟨7, BudgetPeriod.daily.keyAt (lastDateEnd - 1000000000)⟩ 10
      (lastDateEnd - 1000000000),
    .check "alice" (some 7) MemoryLimitStore.oneTokenADay
      (lastDateEnd + 172800000000000)]

/-- After the last date every day is the last one: the amount in memory is
still used, while its key has expired. -/
theorem limitStores_differ :
    (lateRun.Pairwise fun earlier later => earlier.instant ≤ later.instant) ∧
      (∀ call ∈ lateRun, 1 ≤ (WindowIndex.atInstant call.instant).index) ∧
      (∀ call ∈ lateRun, call.InBounds) ∧
      RedisLimitStore.runCalls ∅ lateRun ≠
        (MemoryLimitStore.runCalls MemoryLimitStore.checkAndAdmit .empty
          lateRun).1.map .ok := by
  decide +kernel

end SampleRuns

end Paigasus.Gateway
