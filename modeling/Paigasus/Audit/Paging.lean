import Paigasus.Audit.Query
import Paigasus.Foundation.Json
import Paigasus.Foundation.KeysetPaging

/-!
# Paging through the audit log

A response names the last entry of a full page, and the next request asks for
what is below it.  A client that follows these cursors meets a log that grows
and a time window that moves from one request to the next.
-/

namespace Paigasus.Audit

open Foundation Core

/-- A row of `audit_log`. -/
structure AuditRow where
  id : Uuid
  occurredAt : UtcDateTime
  actorPrn : Option String
  action : String
  resourcePrn : Option String
  outcome : String
  determiningPolicies : Option String
  detail : String
  correlationId : Option Uuid
deriving DecidableEq

namespace AuditRow

/-- Identifiers are ordered by their bytes. -/
def key (row : AuditRow) : Fin (2 ^ 128) := row.id.value

end AuditRow

structure AuditEntry where
  id : Uuid
  occurredAt : UtcDateTime
  actorPrn : Option String
  action : String
  resourcePrn : Option String
  outcome : AuditOutcome
  determiningPolicies : List String
  detail : Json
  correlationId : Option Uuid

/-- The database driver's form of a time, and the readers of the JSON texts of
a row, which may refuse them with a message. -/
structure AuditDriver where
  timestamp : UtcDateTime → Int
  policies : String → Except String (List String)
  detail : String → Except String Json

namespace AuditDriver

variable (driver : AuditDriver)

def policiesFromColumn (raw : Option String) : Except String (List String) :=
  match raw with
  | none => .ok []
  | some text => if text = "" then .ok [] else driver.policies text

def detailFromColumn (raw : String) : Except String Json :=
  if raw = "" then .ok (.object []) else driver.detail raw

def modelToEntry (row : AuditRow) : Except String AuditEntry := do
  let outcome ← okOr ("bad audit outcome: " ++ row.outcome)
    (AuditOutcome.parse row.outcome)
  let determiningPolicies ← driver.policiesFromColumn row.determiningPolicies
  let detail ← driver.detailFromColumn row.detail
  pure
    { id := row.id
      occurredAt := row.occurredAt
      actorPrn := row.actorPrn
      action := row.action
      resourcePrn := row.resourcePrn
      outcome, determiningPolicies, detail
      correlationId := row.correlationId }

/-- A missing column equals nothing. -/
def holds (row : AuditRow) : Condition → Bool
  | .actorPrnEq actorPrn => row.actorPrn = some actorPrn
  | .resourcePrnEq resourcePrn => row.resourcePrn = some resourcePrn
  | .actionEq action => row.action = action
  | .outcomeEq outcome => row.outcome = outcome
  | .occurredAtGte time =>
      driver.timestamp time ≤ driver.timestamp row.occurredAt
  | .occurredAtLte time =>
      driver.timestamp row.occurredAt ≤ driver.timestamp time
  | .idLt cursor => row.id.value < cursor.value

/-- `ORDER BY id DESC LIMIT …`. -/
def run (select : Select) (rows : List AuditRow) : List AuditRow :=
  ((rows.filter fun row => select.conditions.all (driver.holds row)).insertionSort
    fun row other => other.key ≤ row.key).take select.limit

end AuditDriver

/-- The time of a request, and the log as it then is. -/
structure Visit where
  now : UtcDateTime
  rows : List AuditRow

inductive ListFailure where
  | request (error : TenancyError)
  | panicked
  | backend (message : String)
deriving DecidableEq

structure ListResponse where
  entries : List AuditEntry
  nextCursor : Option String

def uuidText (id : Uuid) : String := String.ofList id.hyphenated

/-- The empty text says that there is no next page. -/
def Grpc.nextCursor (limit : Nat) (entries : List AuditEntry) : String :=
  if entries.length = limit then
    (entries.getLast?.map fun entry => uuidText entry.id).getD ""
  else
    ""

def Http.nextCursor (limit : Nat) (entries : List AuditEntry) :
    Option String :=
  if entries.length = limit then
    entries.getLast?.map fun entry => uuidText entry.id
  else
    none

namespace ListRequest

/-- The next cursor of a response to the request, if there is one. -/
def nextCursor (limit : Nat) (entries : List AuditEntry) :
    ListRequest → Option String
  | grpc _ => optString (Grpc.nextCursor limit entries)
  | http _ => Http.nextCursor limit entries

end ListRequest

section Listing

variable (driver : AuditDriver) (readers : TextReaders) (log : PgAuditLog)

/-- The listing of both transports for a caller that may list the log. -/
def listAuditEntries (visit : Visit) (request : ListRequest) :
    Except ListFailure ListResponse := do
  let filter ← (request.toFilter readers).mapError ListFailure.request
  let select ← okOr ListFailure.panicked (log.query visit.now filter)
  let entries ← ((driver.run select visit.rows).mapM
    driver.modelToEntry).mapError ListFailure.backend
  pure
    { entries
      nextCursor := request.nextCursor filter.cappedLimit entries }

end Listing

variable {driver : AuditDriver} {readers : TextReaders} {log : PgAuditLog}

theorem uuidText_ne_empty (id : Uuid) : uuidText id ≠ "" := by
  intro empty
  have noLetters : id.hyphenated = [] := by
    have lists := congrArg String.toList empty
    simpa [uuidText] using lists
  simp [Uuid.hyphenated] at noLetters

theorem optString_uuidText (id : Uuid) :
    optString (uuidText id) = some (uuidText id) := by
  rw [optString, if_neg (uuidText_ne_empty id)]

theorem nextCursor_eq (request : ListRequest) (limit : Nat)
    (entries : List AuditEntry) :
    request.nextCursor limit entries =
      (KeysetPaging.nextCursor AuditEntry.id limit entries).map uuidText := by
  unfold ListRequest.nextCursor KeysetPaging.nextCursor
  cases request with
  | grpc request =>
      unfold Grpc.nextCursor
      dsimp only
      split
      · cases entries.getLast? with
        | none => rfl
        | some entry => exact optString_uuidText entry.id
      · rfl
  | http query =>
      unfold Http.nextCursor
      dsimp only
      split
      · rw [Option.map_map]
        rfl
      · rfl

section Runs

variable {request : ListRequest} {filter : AuditFilter} {visits : List Visit}
  {walk : KeysetPaging.Walk AuditEntry}

def newestFirst : ListRequest :=
  .http ⟨none, none, none, none, none, none, none, some 1⟩

def twoRows (now : UtcDateTime) : List AuditRow :=
  [⟨1, now, none, "CreateTeam", none, "committed", none, "", none⟩,
    ⟨2, now, none, "ListAuditLog", none, "denied", none, "", none⟩]

def pageReaders : TextReaders where
  uuid text := Uuid.tryParse text.toList
  rfc3339 _ := none

def pageDriver : AuditDriver where
  timestamp := UtcDateTime.instant
  policies _ := .ok []
  detail _ := .ok (.object [])

/-- The first day of a year, a time some days before, and the next day. -/
def newYear : UtcDateTime :=
  (UtcDateTime.fromTimestamp? 1767225600 0).get (by decide)

end Runs

section Transports

/-- A query and a request that say the same; an absent text is an empty one. -/
structure Corresponds (readers : TextReaders) (query : Http.AuditQuery)
    (request : Grpc.ListAuditEntriesRequest) : Prop where
  actor : query.actor.getD "" = request.actorPrn
  resource : query.resource.getD "" = request.resourcePrn
  action : query.action.getD "" = request.action
  outcome : query.outcome.getD "" = request.outcome
  fromTime : Http.parseTs readers query.fromTime "from" =
    Grpc.parseOptTs request.fromTime "from"
  toTime : Http.parseTs readers query.toTime "to" =
    Grpc.parseOptTs request.toTime "to"
  cursor : query.cursor.getD "" = request.cursor
  limit : query.limit.getD 0 = request.limit

theorem optNonEmpty_eq (raw : Option String) :
    optNonEmpty raw = optString (raw.getD "") := by
  cases raw with
  | none => rfl
  | some text => rfl

theorem toFilter_of_corresponds {query : Http.AuditQuery}
    {request : Grpc.ListAuditEntriesRequest}
    (same : Corresponds readers query request) :
    Http.toFilter readers query = Grpc.toFilter readers request := by
  have limit := same.limit
  unfold Http.toFilter Grpc.toFilter
  simp only [Http.parseOutcome, Grpc.parseOutcome, Http.parseCursor,
    Grpc.parseCursor, optNonEmpty_eq, same.actor, same.resource, same.action,
    same.outcome, same.fromTime, same.toTime, same.cursor]
  cases given : query.limit with
  | none =>
      rw [given] at limit
      rw [← limit]
      rfl
  | some value =>
      rw [given] at limit
      rw [← limit]
      rfl

/-- Both transports answer the same to what says the same, with the same
failures. -/
theorem transports_agree (driver : AuditDriver) (readers : TextReaders)
    (log : PgAuditLog) (visit : Visit) {query : Http.AuditQuery}
    {request : Grpc.ListAuditEntriesRequest}
    (same : Corresponds readers query request) :
    listAuditEntries driver readers log visit (.http query) =
      listAuditEntries driver readers log visit (.grpc request) := by
  unfold listAuditEntries
  simp only [ListRequest.toFilter, toFilter_of_corresponds same, nextCursor_eq]

theorem transports_agree_newestFirst : ∃ now,
    UtcDateTime.fromTimestamp? 1767225600 0 = some now ∧
      listAuditEntries pageDriver pageReaders ⟨none⟩ ⟨now, twoRows now⟩
          newestFirst =
        listAuditEntries pageDriver pageReaders ⟨none⟩ ⟨now, twoRows now⟩
          (.grpc ⟨"", "", "", "", none, none, "", 1⟩) := by
  obtain ⟨now, isNow⟩ : ∃ now,
      UtcDateTime.fromTimestamp? 1767225600 0 = some now := ⟨_, rfl⟩
  exact ⟨now, isNow,
    transports_agree _ _ _ _ ⟨rfl, rfl, rfl, rfl, rfl, rfl, rfl, rfl⟩⟩

end Transports

end Paigasus.Audit
