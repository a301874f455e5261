import Paigasus.Foundation.Results
import Paigasus.Config.IamConfig
import Paigasus.Core.UtcDateTime
import Paigasus.Foundation.Uuid

/-!
# Queries of the audit log

Both transports map their request to an `AuditFilter`; the log bounds its time
window and asks the database.  The date arithmetic is unchecked in the source:
a result outside of the range of a date is a panic, which is `none` here.
-/

namespace Paigasus.Audit

open Foundation Core Config

inductive AuditOutcome where
  | committed
  | denied
deriving DecidableEq

def AuditOutcome.asStr : AuditOutcome → String
  | committed => "committed"
  | denied => "denied"

def AuditOutcome.parse (text : String) : Option AuditOutcome :=
  if text = "committed" then some committed
  else if text = "denied" then some denied
  else none

/-- The request errors of the audit log, with the field they name. -/
inductive TenancyError where
  | invalidTimestamp (field : String)
  | invalidCursor (field : String)
  | invalidAuditOutcome (field : String)
deriving DecidableEq

def TenancyError.message : TenancyError → String
  | invalidTimestamp field => "invalid timestamp for " ++ field
  | invalidCursor field => field ++ " is not a valid pagination cursor"
  | invalidAuditOutcome field => field ++ " is not a known audit outcome"

structure AuditFilter where
  actorPrn : Option String
  resourcePrn : Option String
  action : Option String
  outcome : Option AuditOutcome
  fromTime : Option UtcDateTime
  toTime : Option UtcDateTime
  cursor : Option Uuid
  limit : Nat
deriving DecidableEq

def maxLimit : Nat := 200

def AuditFilter.cappedLimit (filter : AuditFilter) : Nat :=
  max 1 (min filter.limit maxLimit)

def defaultLimit : Nat := 50

/-- `prost_types::Timestamp`. -/
structure Timestamp where
  seconds : Int
  nanos : Int
deriving DecidableEq

/-- The readers of other libraries: any form of a UUID, and RFC 3339. -/
structure TextReaders where
  uuid : String → Option Uuid
  rfc3339 : String → Option UtcDateTime

def optString (raw : String) : Option String :=
  if raw = "" then none else some raw

def optNonEmpty (raw : Option String) : Option String := raw.bind optString

/-- An absent text is unfiltered; a present one has to be read. -/
def parseOptional {Value : Type} (raw : Option String)
    (read : String → Option Value) (error : TenancyError) :
    Except TenancyError (Option Value) :=
  match raw with
  | none => .ok none
  | some text =>
      match read text with
      | none => .error error
      | some value => .ok (some value)

namespace Grpc

structure ListAuditEntriesRequest where
  actorPrn : String
  resourcePrn : String
  action : String
  outcome : String
  fromTime : Option Timestamp
  toTime : Option Timestamp
  cursor : String
  limit : Nat
deriving DecidableEq

def fromTs (timestamp : Timestamp) : Option UtcDateTime :=
  if timestamp.nanos < 0 then none
  else UtcDateTime.fromTimestamp? timestamp.seconds timestamp.nanos.toNat

def parseOptTs (timestamp : Option Timestamp) (field : String) :
    Except TenancyError (Option UtcDateTime) :=
  match timestamp with
  | none => .ok none
  | some raw =>
      match fromTs raw with
      | none => .error (.invalidTimestamp field)
      | some time => .ok (some time)

def parseOutcome (raw : String) : Except TenancyError (Option AuditOutcome) :=
  parseOptional (optString raw) AuditOutcome.parse
    (.invalidAuditOutcome "outcome")

def parseCursor (readers : TextReaders) (raw : String) :
    Except TenancyError (Option Uuid) :=
  parseOptional (optString raw) readers.uuid (.invalidCursor "cursor")

def toFilter (readers : TextReaders) (request : ListAuditEntriesRequest) :
    Except TenancyError AuditFilter := do
  let outcome ← parseOutcome request.outcome
  let fromTime ← parseOptTs request.fromTime "from"
  let toTime ← parseOptTs request.toTime "to"
  let cursor ← parseCursor readers request.cursor
  pure
    { actorPrn := optString request.actorPrn
      resourcePrn := optString request.resourcePrn
      action := optString request.action
      outcome, fromTime, toTime, cursor
      limit := if request.limit = 0 then defaultLimit else request.limit }

end Grpc

namespace Http

structure AuditQuery where
  actor : Option String
  resource : Option String
  action : Option String
  outcome : Option String
  fromTime : Option String
  toTime : Option String
  cursor : Option String
  limit : Option Nat
deriving DecidableEq

def parseTs (readers : TextReaders) (raw : Option String) (field : String) :
    Except TenancyError (Option UtcDateTime) :=
  parseOptional (optNonEmpty raw) readers.rfc3339 (.invalidTimestamp field)

def parseOutcome (raw : Option String) :
    Except TenancyError (Option AuditOutcome) :=
  parseOptional (optNonEmpty raw) AuditOutcome.parse
    (.invalidAuditOutcome "outcome")

def parseCursor (readers : TextReaders) (raw : Option String) :
    Except TenancyError (Option Uuid) :=
  parseOptional (optNonEmpty raw) readers.uuid (.invalidCursor "cursor")

def toFilter (readers : TextReaders) (query : AuditQuery) :
    Except TenancyError AuditFilter := do
  let outcome ← parseOutcome query.outcome
  let fromTime ← parseTs readers query.fromTime "from"
  let toTime ← parseTs readers query.toTime "to"
  let cursor ← parseCursor readers query.cursor
  pure
    { actorPrn := optNonEmpty query.actor
      resourcePrn := optNonEmpty query.resource
      action := optNonEmpty query.action
      outcome, fromTime, toTime, cursor
      limit := match query.limit with
        | none => defaultLimit
        | some limit => if limit = 0 then defaultLimit else limit }

end Http

/-- A condition of the `WHERE` clause. -/
inductive Condition where
  | actorPrnEq (actorPrn : String)
  | resourcePrnEq (resourcePrn : String)
  | actionEq (action : String)
  | outcomeEq (outcome : String)
  | occurredAtGte (time : UtcDateTime)
  | occurredAtLte (time : UtcDateTime)
  | idLt (cursor : Uuid)
deriving DecidableEq

/-- What the database is asked for: the rows that meet all conditions, by
descending id, and at most so many. -/
structure Select where
  conditions : List Condition
  limit : Nat
deriving DecidableEq

structure Window where
  fromTime : Option UtcDateTime
  toTime : Option UtcDateTime
deriving DecidableEq

structure PgAuditLog where
  queryWindow : Option (UInt32 × UInt32)

namespace PgAuditLog

/-- The log as the service composes it. -/
def ofConfig (config : AuditConfig) : PgAuditLog where
  queryWindow := some (config.queryDefaultWindowDays,
    config.queryMaxWindowDays)

/-- The bounds of a query at a time; `none` is a panic. -/
def effectiveWindow (log : PgAuditLog) (now : UtcDateTime)
    (filter : AuditFilter) : Option Window :=
  match log.queryWindow with
  | none => some ⟨filter.fromTime, filter.toTime⟩
  | some (defaultDays, maxDays) =>
      match filter.fromTime, filter.toTime with
      | none, none =>
          (now.subDays defaultDays.toNat).map fun first =>
            ⟨some first, some now⟩
      | none, some last =>
          (last.subDays maxDays.toNat).map fun first =>
            ⟨some first, some last⟩
      | some first, none =>
          (now.subDays maxDays.toNat).map fun earliest =>
            ⟨some (first.latest earliest), some now⟩
      | some first, some last =>
          (last.subDays maxDays.toNat).map fun earliest =>
            ⟨some (first.latest earliest), some last⟩

def query (log : PgAuditLog) (now : UtcDateTime) (filter : AuditFilter) :
    Option Select :=
  (log.effectiveWindow now filter).map fun window =>
    { conditions :=
        (filter.actorPrn.map Condition.actorPrnEq).toList ++
        (filter.resourcePrn.map Condition.resourcePrnEq).toList ++
        (filter.action.map Condition.actionEq).toList ++
        (filter.outcome.map fun outcome =>
          Condition.outcomeEq outcome.asStr).toList ++
        (window.fromTime.map Condition.occurredAtGte).toList ++
        (window.toTime.map Condition.occurredAtLte).toList ++
        (filter.cursor.map Condition.idLt).toList
      limit := filter.cappedLimit }

end PgAuditLog

/-- `ApiKeyService::default_expires_at`; the inner `none` is a panic. -/
def defaultExpiresAt (config : ApiKeyConfig) (now : UtcDateTime) :
    Option (Option UtcDateTime) :=
  config.defaultExpiryDays.map fun days => now.addDays days.toNat

/-- A request of one of the two transports. -/
inductive ListRequest where
  | grpc (request : Grpc.ListAuditEntriesRequest)
  | http (query : Http.AuditQuery)

def ListRequest.toFilter (readers : TextReaders) :
    ListRequest → Except TenancyError AuditFilter
  | grpc request => Grpc.toFilter readers request
  | http query => Http.toFilter readers query

/-- RFC 3339 writes a year with four digits; its offset may move the date by a
day. -/
def TextReaders.FourDigitYears (readers : TextReaders) : Prop :=
  ∀ text time, readers.rfc3339 text = some time →
    -1 ≤ time.year ∧ time.year ≤ 10000

/-- The second that a subtraction from the time starts at. -/
def Timestamp.leaving (timestamp : Timestamp) : Int :=
  if timestamp.nanos < 1000000000 then timestamp.seconds
  else timestamp.seconds + 1

/-- The widest window that ends with the request starts within the range. -/
def ListRequest.ReachesBack (maxDays : Nat) : ListRequest → Prop
  | grpc request => ∀ raw, request.toTime = some raw →
      UtcDateTime.minSeconds + maxDays * 86400 ≤ raw.leaving
  | http _ => True

theorem subDays_of_year {now : UtcDateTime} (recent : -1 ≤ now.year)
    {days : Nat} (positive : 0 < days) (capped : days ≤ 36600) :
    (now.subDays days).isSome := by
  have back := UtcDateTime.le_seconds_of_year recent
  rw [UtcDateTime.subDays_isSome positive]
  unfold UtcDateTime.leaving
  split <;> omega

theorem Grpc.toTime_of_toFilter {readers : TextReaders}
    {request : ListAuditEntriesRequest} {filter : AuditFilter}
    (mapped : toFilter readers request = .ok filter) :
    parseOptTs request.toTime "to" = .ok filter.toTime := by
  unfold toFilter at mapped
  obtain ⟨outcome, _, mapped⟩ := bind_ok.mp mapped
  obtain ⟨fromTime, _, mapped⟩ := bind_ok.mp mapped
  obtain ⟨toTime, parsed, mapped⟩ := bind_ok.mp mapped
  obtain ⟨cursor, _, mapped⟩ := bind_ok.mp mapped
  cases mapped
  exact parsed

theorem Http.toTime_of_toFilter {readers : TextReaders} {query : AuditQuery}
    {filter : AuditFilter} (mapped : toFilter readers query = .ok filter) :
    parseTs readers query.toTime "to" = .ok filter.toTime := by
  unfold toFilter at mapped
  obtain ⟨outcome, _, mapped⟩ := bind_ok.mp mapped
  obtain ⟨fromTime, _, mapped⟩ := bind_ok.mp mapped
  obtain ⟨toTime, parsed, mapped⟩ := bind_ok.mp mapped
  obtain ⟨cursor, _, mapped⟩ := bind_ok.mp mapped
  cases mapped
  exact parsed

theorem leaving_of_fromTs {raw : Timestamp} {time : UtcDateTime}
    (converted : Grpc.fromTs raw = some time) : time.leaving = raw.leaving := by
  unfold Grpc.fromTs at converted
  split at converted
  · cases converted
  · obtain ⟨seconds, nanos⟩ := UtcDateTime.fromTimestamp?_eq converted
    unfold UtcDateTime.leaving Timestamp.leaving
    split <;> split <;> omega

/-- The end of a filter is far enough from the start of the range exactly where
that of its request is. -/
theorem reachesBack_iff {readers : TextReaders}
    (fourDigits : readers.FourDigitYears) {request : ListRequest}
    {filter : AuditFilter} (mapped : request.toFilter readers = .ok filter)
    {maxDays : Nat} (capped : maxDays ≤ 36600) :
    request.ReachesBack maxDays ↔ ∀ last, filter.toTime = some last →
      UtcDateTime.minSeconds + maxDays * 86400 ≤ last.leaving := by
  cases request with
  | grpc request =>
      have parsed := Grpc.toTime_of_toFilter mapped
      unfold Grpc.parseOptTs at parsed
      simp only [ListRequest.ReachesBack]
      split at parsed
      case h_1 absent =>
        have same : filter.toTime = none := by
          injection parsed with same
          exact same.symm
        simp [absent, same]
      case h_2 raw present =>
        split at parsed
        · cases parsed
        · rename_i time converted
          have same : filter.toTime = some time := by
            injection parsed with same
            exact same.symm
          have leaving := leaving_of_fromTs converted
          simp only [present, same, Option.some.injEq, forall_eq', leaving]
  | http query =>
      have parsed := Http.toTime_of_toFilter mapped
      simp only [ListRequest.ReachesBack, true_iff]
      intro last present
      unfold Http.parseTs parseOptional at parsed
      split at parsed
      · rw [present] at parsed
        cases parsed
      · rename_i text _
        split at parsed
        · cases parsed
        · rename_i time isRead
          have same : time = last := by
            rw [present] at parsed
            injection parsed with same
            injection same
          subst same
          have recent := (fourDigits _ _ isRead).1
          have back := UtcDateTime.le_seconds_of_year recent
          unfold UtcDateTime.leaving
          split <;> omega

namespace PgAuditLog

variable {config : AuditConfig} {now : UtcDateTime} {filter : AuditFilter}

/-- The window of a query is there, and not wider than configured. -/
def WindowInRange (config : AuditConfig) (now : UtcDateTime)
    (filter : AuditFilter) : Prop :=
  ∃ first last,
    (ofConfig config).effectiveWindow now filter =
        some ⟨some first, some last⟩ ∧
      last.instant - first.instant ≤
        config.queryMaxWindowDays.toNat * nanosPerDay

/-- A window that ends at a time and starts with the later of a bound and the
earliest time allowed. -/
theorem width_latest {days : Nat} (positive : 0 < days)
    {bound earliest last : UtcDateTime}
    (subtracted : last.subDays days = some earliest) :
    last.instant - (bound.latest earliest).instant ≤ days * nanosPerDay := by
  obtain ⟨small, instant⟩ := UtcDateTime.subDays_spec positive subtracted
  have later := UtcDateTime.instant_le_latest bound small
  omega

theorem windowInRange_of_noEnd (accepted : config.Accepted)
    (recent : -1 ≤ now.year) (open_ : filter.toTime = none) :
    WindowInRange config now filter := by
  have positive := accepted.positive
  have ordered := accepted.ordered
  have capped := accepted.capped
  cases bounded : filter.fromTime with
  | none =>
      obtain ⟨first, subtracted⟩ := Option.isSome_iff_exists.mp
        (subDays_of_year recent positive (ordered.trans capped))
      refine ⟨first, now, ?_, ?_⟩
      · simp [effectiveWindow, ofConfig, bounded, open_, subtracted]
      · obtain ⟨_small, instant⟩ :=
          UtcDateTime.subDays_spec positive subtracted
        unfold nanosPerDay at instant ⊢
        omega
  | some bound =>
      have maxPositive := positive.trans_le ordered
      obtain ⟨earliest, subtracted⟩ := Option.isSome_iff_exists.mp
        (subDays_of_year recent maxPositive capped)
      refine ⟨bound.latest earliest, now, ?_, width_latest maxPositive
        subtracted⟩
      simp [effectiveWindow, ofConfig, bounded, open_, subtracted]

theorem windowInRange_of_end (accepted : config.Accepted)
    {last : UtcDateTime} (ends : filter.toTime = some last) :
    WindowInRange config now filter ↔
      (last.subDays config.queryMaxWindowDays.toNat).isSome := by
  have maxPositive := accepted.positive.trans_le accepted.ordered
  constructor
  · rintro ⟨first, final, window, _width⟩
    cases subtracted : last.subDays config.queryMaxWindowDays.toNat with
    | some earliest => rfl
    | none =>
        cases bounded : filter.fromTime with
        | none =>
            simp [effectiveWindow, ofConfig, bounded, ends,
              subtracted] at window
        | some bound =>
            simp [effectiveWindow, ofConfig, bounded, ends,
              subtracted] at window
  · intro subtractable
    obtain ⟨earliest, subtracted⟩ := Option.isSome_iff_exists.mp subtractable
    cases bounded : filter.fromTime with
    | none =>
        refine ⟨earliest, last, ?_, ?_⟩
        · simp [effectiveWindow, ofConfig, bounded, ends, subtracted]
        · obtain ⟨_small, instant⟩ :=
            UtcDateTime.subDays_spec maxPositive subtracted
          omega
    | some bound =>
        refine ⟨bound.latest earliest, last, ?_, width_latest maxPositive
          subtracted⟩
        simp [effectiveWindow, ofConfig, bounded, ends, subtracted]

theorem windowInRange_iff (accepted : config.Accepted)
    (recent : -1 ≤ now.year) :
    WindowInRange config now filter ↔
      ∀ last, filter.toTime = some last →
        UtcDateTime.minSeconds + config.queryMaxWindowDays.toNat * 86400 ≤
          last.leaving := by
  have maxPositive := accepted.positive.trans_le accepted.ordered
  cases ends : filter.toTime with
  | none =>
      constructor
      · intro _ last present
        cases present
      · intro _
        exact windowInRange_of_noEnd accepted recent ends
  | some last =>
      rw [windowInRange_of_end accepted ends,
        UtcDateTime.subDays_isSome maxPositive]
      simp

end PgAuditLog

/-- No date leaves the range, and the window is not wider than configured. -/
structure DatesInRange (config : IamConfig) (now : UtcDateTime)
    (filter : AuditFilter) : Prop where
  window : PgAuditLog.WindowInRange config.audit now filter
  expiry : ∀ expiry, defaultExpiresAt config.apiKeys now = some expiry →
    expiry.isSome

/-- A request is answered without a panic, and its window is not wider than
configured, exactly where its end and the configured expiry stay in the range of
a date. -/
theorem datesInRange_iff {readers : TextReaders}
    (fourDigits : readers.FourDigitYears)
    {decodeStandard : String → Option (List UInt8)} {config : IamConfig}
    (valid : config.validate decodeStandard = .ok ()) {now : UtcDateTime}
    (current : 0 ≤ now.year ∧ now.year ≤ 9999) {request : ListRequest}
    {filter : AuditFilter} (mapped : request.toFilter readers = .ok filter) :
    DatesInRange config now filter ↔
      request.ReachesBack config.audit.queryMaxWindowDays.toNat ∧
        ∀ days, config.apiKeys.defaultExpiryDays = some days →
          now.seconds + days.toNat * 86400 ≤ UtcDateTime.maxSeconds := by
  obtain ⟨_, accepted⟩ := IamConfig.accepted_of_validate valid
  have recent : -1 ≤ now.year := by omega
  have window : PgAuditLog.WindowInRange config.audit now filter ↔
      request.ReachesBack config.audit.queryMaxWindowDays.toNat :=
    (PgAuditLog.windowInRange_iff accepted recent).trans
      (reachesBack_iff fourDigits mapped accepted.capped).symm
  have expiry : (∀ expiry, defaultExpiresAt config.apiKeys now = some expiry →
      expiry.isSome) ↔
      ∀ days, config.apiKeys.defaultExpiryDays = some days →
        now.seconds + days.toNat * 86400 ≤ UtcDateTime.maxSeconds := by
    cases configured : config.apiKeys.defaultExpiryDays with
    | none => simp [defaultExpiresAt, configured]
    | some days =>
        simp [defaultExpiresAt, configured, UtcDateTime.addDays_isSome]
  constructor
  · rintro ⟨inWindow, inExpiry⟩
    exact ⟨window.mp inWindow, expiry.mp inExpiry⟩
  · rintro ⟨reaches, fits⟩
    exact ⟨window.mpr reaches, expiry.mpr fits⟩

def sampleConfig : IamConfig where
  apiKeys :=
    { pepper := "pepper"
      keyPrefix := "pgs_"
      maxTokenBytes := 256
      defaultExpiryDays := some 365
      introspectCache := ⟨.memory, none, 60⟩ }
  audit :=
    { denialBufferCapacity := 1024
      retention := ⟨86400, 1⟩
      queryDefaultWindowDays := 30
      queryMaxWindowDays := 366 }

def samplePepper (_raw : String) : Option (List UInt8) :=
  some (List.replicate 32 0)

/-- Reads one date. -/
def sampleReaders : TextReaders where
  uuid _ := none
  rfc3339 text :=
    if text = "2026-01-01T00:00:00Z" then
      UtcDateTime.fromTimestamp? 1767225600 0
    else
      none

def sampleQuery : Http.AuditQuery where
  actor := none
  resource := none
  action := none
  outcome := some "denied"
  fromTime := none
  toTime := some "2026-01-01T00:00:00Z"
  cursor := none
  limit := none

/-- The same request with the first date of the range as its end. -/
def sampleRequest : Grpc.ListAuditEntriesRequest where
  actorPrn := ""
  resourcePrn := ""
  action := ""
  outcome := "denied"
  fromTime := none
  toTime := some ⟨-8334601228800, 0⟩
  cursor := ""
  limit := 0

theorem sampleTime_year {time : UtcDateTime}
    (found : UtcDateTime.fromTimestamp? 1767225600 0 = some time) :
    time.year = 2026 := by
  obtain ⟨seconds, _nanos⟩ := UtcDateTime.fromTimestamp?_eq found
  unfold UtcDateTime.year
  rw [seconds]
  decide

theorem sampleReaders_fourDigitYears : sampleReaders.FourDigitYears := by
  intro text time isRead
  simp only [sampleReaders] at isRead
  split at isRead
  · have same := sampleTime_year isRead
    omega
  · cases isRead

theorem sampleConfig_valid : sampleConfig.validate samplePepper = .ok () := by
  decide

theorem datesInRange_iff_sample : ∃ now filter,
    UtcDateTime.fromTimestamp? 1767225600 0 = some now ∧
      Http.toFilter sampleReaders sampleQuery = .ok filter ∧
      DatesInRange sampleConfig now filter := by
  obtain ⟨now, isNow⟩ : ∃ now,
      UtcDateTime.fromTimestamp? 1767225600 0 = some now := ⟨_, rfl⟩
  obtain ⟨filter, mapped⟩ : ∃ filter,
      (ListRequest.http sampleQuery).toFilter sampleReaders = .ok filter := by
    simp only [ListRequest.toFilter, Http.toFilter, Http.parseOutcome,
      Http.parseTs, Http.parseCursor, sampleQuery, sampleReaders,
      optNonEmpty, optString, parseOptional, isNow]
    exact ⟨_, rfl⟩
  have year := sampleTime_year isNow
  refine ⟨now, filter, isNow, mapped, ?_⟩
  refine (datesInRange_iff sampleReaders_fourDigitYears sampleConfig_valid
    (by omega) mapped).mpr ⟨trivial, ?_⟩
  intro days configured
  obtain ⟨seconds, _nanos⟩ := UtcDateTime.fromTimestamp?_eq isNow
  cases configured
  rw [seconds]
  decide

/-- A wire timestamp that is accepted makes the query panic, and so does every
issued key under a default expiry that is accepted. -/
theorem accepted_dates_panic : ∃ now filter,
    UtcDateTime.fromTimestamp? 1767225600 0 = some now ∧
      Grpc.toFilter sampleReaders sampleRequest = .ok filter ∧
      (PgAuditLog.ofConfig sampleConfig.audit).query now filter = none ∧
      ¬ DatesInRange sampleConfig now filter ∧
      ({ sampleConfig with
        apiKeys := { sampleConfig.apiKeys with
          defaultExpiryDays := some 4294967295 } }).validate samplePepper =
        .ok () ∧
      defaultExpiresAt { sampleConfig.apiKeys with
        defaultExpiryDays := some 4294967295 } now = some none := by
  obtain ⟨now, isNow⟩ : ∃ now,
      UtcDateTime.fromTimestamp? 1767225600 0 = some now := ⟨_, rfl⟩
  have overflows : now.addDays 4294967295 = none := by
    obtain ⟨seconds, _nanos⟩ := UtcDateTime.fromTimestamp?_eq isNow
    rw [← Option.not_isSome_iff_eq_none, UtcDateTime.addDays_isSome, seconds]
    decide
  refine ⟨now, _, isNow, rfl, rfl, ?_, by decide, ?_⟩
  · rintro ⟨⟨first, last, window, _width⟩, _expiry⟩
    cases window
  · simp only [defaultExpiresAt, Option.map_some]
    exact congrArg some overflows

end Paigasus.Audit
