import Mathlib.Data.List.Sort
import Mathlib.Logic.Function.Basic
import Paigasus.Core.Tenancy
import Paigasus.Foundation.Transition

/-!
# The event outbox and its writers

Five writers change the rows of the outbox: the services that enqueue events,
the relay ticks, the retention sweeps, and the operator's replays and discards.
Every writer runs in a transaction of its own.  A statement locks the rows it
matches until the transaction ends, `SKIP LOCKED` leaves out rows that another
transaction holds, and a change becomes visible at the commit.  Beside the rows
the world keeps the history that the life cycle is about.
-/

namespace Paigasus.Outbox

open Foundation Core

/-- One row of the outbox table. -/
structure OutboxRow where
  id : Uuid
  occurredAt : Timestamp
  eventType : String
  schemaVersion : Int
  aggregatePrn : String
  actorPrn : Option String
  payload : String
  correlationId : Option Uuid
  publishedAt : Option Timestamp
  attempts : Nat
  parked : Bool
  parkedAt : Option Timestamp
  lastError : Option String
deriving DecidableEq

inductive TickMode where
  | all
  | fresh
deriving DecidableEq

/-- What one publish attempt ended in, with the clock value read after it. -/
inductive PublishOutcome where
  | published (now : Timestamp)
  | failed (reason : String) (now : Timestamp)
deriving DecidableEq

/-- A processed row of a tick. -/
structure Attempt where
  row : OutboxRow
  outcome : PublishOutcome
deriving DecidableEq

def Attempt.failed (attempt : Attempt) : Bool :=
  match attempt.outcome with
  | .published _ => false
  | .failed _ _ => true

structure OutboxRelay where
  batchSize : Nat
  maxAttempts : Nat
  /-- Why a stored row does not decode into an event, if it does not. -/
  decodeError : OutboxRow → Option String

/-- A row that does not decode fails without a publish call. -/
def OutboxRelay.attempt (relay : OutboxRelay) (row : OutboxRow)
    (outcome : PublishOutcome) : Attempt :=
  match relay.decodeError row, outcome with
  | some reason, .published now => ⟨row, .failed reason now⟩
  | some reason, .failed _ now => ⟨row, .failed reason now⟩
  | none, _ => ⟨row, outcome⟩

def maxErrorBytes : Nat := 1024

/-- The longest run of leading characters that starts within the byte bound. -/
def takeBytes (bound : Nat) : List Char → List Char
  | [] => []
  | char :: rest =>
      if bound < char.utf8Size then
        []
      else
        char :: takeBytes (bound - char.utf8Size) rest

/-- Bounds an error text, cutting on a character boundary and marking the
elision. -/
def truncateError (text : String) : String :=
  if text.utf8ByteSize ≤ maxErrorBytes then
    text
  else
    String.ofList (takeBytes maxErrorBytes text.toList) ++ "…"

/-- The columns a tick writes for one processed row. -/
def OutboxRelay.update (relay : OutboxRelay) (attempt : Attempt) : OutboxRow :=
  match attempt.outcome with
  | .published now => { attempt.row with publishedAt := some now }
  | .failed reason now =>
      let attempts := attempt.row.attempts + 1
      let failed :=
        { attempt.row with
          attempts
          lastError := some (truncateError reason) }
      if relay.maxAttempts ≤ attempts then
        { failed with parked := true, parkedAt := some now }
      else
        failed

/-- The rows a tick may drain. -/
def drainable (mode : TickMode) (row : OutboxRow) : Bool :=
  row.publishedAt.isNone && !row.parked &&
    (mode = .all || row.attempts = 0)

structure OutboxRetentionPolicy where
  enabled : Bool
  publishedDays : Nat
  parkedDays : Nat
  batchSize : Nat
deriving DecidableEq

inductive SweepStep where
  | disabled
  | overflow
  | run (cutoff : Timestamp)
deriving DecidableEq

/-- The first representable instant, in microseconds. -/
def minUtc : Timestamp := -8334601228800 * 1000000

def microsPerDay : Int := 86400 * 1000000

def cutoff (now : Timestamp) (days : Nat) : Option Timestamp :=
  if now - days * microsPerDay < minUtc then none
  else some (now - days * microsPerDay)

def sweepStep (now : Timestamp) (days : Nat) : SweepStep :=
  if days = 0 then
    .disabled
  else
    match cutoff now days with
    | some cut => .run cut
    | none => .overflow

inductive SweepKind where
  | published
  | parked
deriving DecidableEq

def SweepKind.days (policy : OutboxRetentionPolicy) : SweepKind → Nat
  | published => policy.publishedDays
  | parked => policy.parkedDays

/-- The predicates of the two sweep statements. -/
def SweepKind.matches (cut : Timestamp) (row : OutboxRow) : SweepKind → Bool
  | published =>
      row.publishedAt.any (fun instant => decide (instant < cut)) && !row.parked
  | parked =>
      row.parked && row.parkedAt.any (fun instant => decide (instant < cut))

structure BulkReplayRequest where
  eventType : Option String
  parkedFrom : Option Timestamp
  parkedTo : Option Timestamp
  maxRows : Nat
deriving DecidableEq

namespace BulkReplayRequest

def maxBulkReplay : Nat := 10000

def cappedMaxRows (request : BulkReplayRequest) : Nat :=
  min request.maxRows maxBulkReplay

/-- The shared filter of the bulk replay.  A comparison with a missing
`parkedAt` is not true. -/
def filterClauses (request : BulkReplayRequest) (row : OutboxRow) : Bool :=
  row.parked &&
    request.eventType.all (fun kind => decide (row.eventType = kind)) &&
    request.parkedFrom.all (fun start =>
      row.parkedAt.any fun instant => decide (start ≤ instant)) &&
    request.parkedTo.all (fun stop =>
      row.parkedAt.any fun instant => decide (instant ≤ stop))

end BulkReplayRequest

/-- Why a one-statement transaction changes its rows. -/
inductive Cause where
  | replay
  | discard
  | sweep (kind : SweepKind) (now : Timestamp) (policy : OutboxRetentionPolicy)
deriving DecidableEq

/-- An open transaction with the row versions it has locked. -/
inductive Txn where
  | tick (mode : TickMode) (processed : List Attempt)
      (remaining : List OutboxRow)
  | change (cause : Cause) (rows : List OutboxRow)

def Txn.rows : Txn → List OutboxRow
  | .tick _ processed remaining => processed.map Attempt.row ++ remaining
  | .change _ rows => rows

def Txn.processed : Txn → List Attempt
  | .tick _ processed _ => processed
  | .change _ _ => []

structure Deletion where
  row : OutboxRow
  cause : Cause

structure World where
  rows : List OutboxRow
  locks : List (Uuid × Nat)
  txns : Nat → Option Txn
  /-- Rows for which a publish call has returned Ok since their enqueue. -/
  acknowledged : List Uuid
  enqueued : List Uuid
  deleted : List Deletion
  /-- Committed failed attempts since the enqueue or the last replay. -/
  failures : Uuid → Nat
  /-- Committed `All` ticks that selected the row since then. -/
  allTicks : Uuid → Nat

inductive Action where
  | enqueue (row : OutboxRow)
  | beginTick (txn : Nat) (mode : TickMode)
  | publish (txn : Nat) (outcome : PublishOutcome)
  | replayOne (txn : Nat) (id : Uuid)
  | replayMatching (txn : Nat) (request : BulkReplayRequest)
  | discardOne (txn : Nat) (id : Uuid)
  | sweepPass (txn : Nat) (kind : SweepKind) (now : Timestamp)
      (policy : OutboxRetentionPolicy)
  | commit (txn : Nat)
  | rollback (txn : Nat)

namespace World

def initial : World :=
  { rows := []
    locks := []
    txns := fun _ => none
    acknowledged := []
    enqueued := []
    deleted := []
    failures := fun _ => 0
    allTicks := fun _ => 0 }

def locked (world : World) (id : Uuid) : Bool :=
  world.locks.any fun lock => lock.1 = id

/-- `ORDER BY id LIMIT … FOR UPDATE SKIP LOCKED`. -/
def selectSkipLocked (world : World) (condition : OutboxRow → Bool)
    (limit : Nat) : List OutboxRow :=
  ((world.rows.filter fun row => condition row && !world.locked row.id).insertionSort
    fun left right => left.id.value ≤ right.id.value).take limit

/-- Opens a transaction that holds the given rows. -/
def openTxn (world : World) (txn : Nat) (state : Txn) : Option World :=
  match world.txns txn with
  | some _ => none
  | none =>
      some { world with
        txns := Function.update world.txns txn (some state)
        locks := state.rows.map (fun row => (row.id, txn)) ++ world.locks }

def closeTxn (world : World) (txn : Nat) : World :=
  { world with
    txns := Function.update world.txns txn none
    locks := world.locks.filter fun lock => lock.2 ≠ txn }

/-- The parked rows with the given id; a statement waits while another
transaction holds one of them. -/
def matchOne (world : World) (id : Uuid) : Option (List OutboxRow) :=
  let rows := world.rows.filter fun row => row.id = id && row.parked
  if rows.any fun row => world.locked row.id then none else some rows

def replayed (row : OutboxRow) : OutboxRow :=
  { row with parked := false, attempts := 0, parkedAt := none }

def writeRow (relay : OutboxRelay) (processed : List Attempt)
    (row : OutboxRow) : OutboxRow :=
  match processed.find? fun attempt => attempt.row.id = row.id with
  | some attempt => relay.update attempt
  | none => row

def commitTick (relay : OutboxRelay) (world : World) (mode : TickMode)
    (processed : List Attempt) : World :=
  { world with
    rows := world.rows.map (writeRow relay processed)
    failures := fun id =>
      world.failures id +
        if processed.any fun attempt => attempt.row.id = id && attempt.failed
        then 1 else 0
    allTicks := fun id =>
      world.allTicks id +
        if mode = .all && processed.any fun attempt => attempt.row.id = id
        then 1 else 0 }

def commitChange (world : World) (cause : Cause) (rows : List OutboxRow) :
    World :=
  let changed := fun id => rows.any fun row => row.id = id
  match cause with
  | .replay =>
      { world with
        rows := world.rows.map fun row =>
          if changed row.id then replayed row else row
        failures := fun id => if changed id then 0 else world.failures id
        allTicks := fun id => if changed id then 0 else world.allTicks id }
  | _ =>
      { world with
        rows := world.rows.filter fun row => !changed row.id
        deleted := rows.map (fun row => ⟨row, cause⟩) ++ world.deleted }

def step (relay : OutboxRelay) (world : World) : Action → Option World
  | .enqueue row =>
      if world.rows.any fun other => other.id = row.id then
        none
      else
        some { world with
          rows := world.rows ++
            [{ row with
                publishedAt := none
                attempts := 0
                parked := false
                parkedAt := none
                lastError := none }]
          enqueued := row.id :: world.enqueued
          acknowledged := world.acknowledged.filter (· ≠ row.id)
          failures := Function.update world.failures row.id 0
          allTicks := Function.update world.allTicks row.id 0 }
  | .beginTick txn mode =>
      world.openTxn txn
        (.tick mode [] (world.selectSkipLocked (drainable mode) relay.batchSize))
  | .publish txn outcome =>
      match world.txns txn with
      | some (.tick mode processed (row :: remaining)) =>
          let attempt := relay.attempt row outcome
          some { world with
            txns := Function.update world.txns txn
              (some (.tick mode (processed ++ [attempt]) remaining))
            acknowledged :=
              if attempt.failed then world.acknowledged
              else row.id :: world.acknowledged }
      | _ => none
  | .replayOne txn id =>
      (world.matchOne id).bind fun rows =>
        world.openTxn txn (.change .replay rows)
  | .replayMatching txn request =>
      world.openTxn txn (.change .replay
        (world.selectSkipLocked request.filterClauses request.cappedMaxRows))
  | .discardOne txn id =>
      (world.matchOne id).bind fun rows =>
        world.openTxn txn (.change .discard rows)
  | .sweepPass txn kind now policy =>
      if policy.enabled && policy.batchSize ≠ 0 then
        match sweepStep now (kind.days policy) with
        | .run cut =>
            world.openTxn txn (.change (.sweep kind now policy)
              (world.selectSkipLocked (kind.matches cut) policy.batchSize))
        | _ => none
      else
        none
  | .commit txn =>
      match world.txns txn with
      | some (.tick mode processed []) =>
          some ((world.commitTick relay mode processed).closeTxn txn)
      | some (.change cause rows) =>
          some ((world.commitChange cause rows).closeTxn txn)
      | _ => none
  | .rollback txn =>
      match world.txns txn with
      | some _ => some (world.closeTxn txn)
      | none => none

end World

end Paigasus.Outbox
