import Paigasus.Foundation.Processes

/-!
# Resolving a service

Stale-while-revalidate over a shared cache entry with a lock: `resolveService`
as a process that takes one step per call of the cache, and the cache of one
service with its compare-and-set on `rev`.  The entry and the lock may expire
between any two steps.
-/

namespace Paigasus.Discovery

open Foundation

structure ServiceDescriptor where
  service : String
  version : String
  capabilities : List String
deriving DecidableEq

inductive DegradedReason where
  | timeout
  | network
  | unauthorized
  | notImplemented
  | badResponse
  | serverError
  | cacheUnavailable
deriving DecidableEq

inductive ServiceState where
  | available (service : String) (descriptor : ServiceDescriptor)
      (capabilities : List String)
  | degraded (service : String) (reason : DegradedReason)
      (descriptor : Option ServiceDescriptor) (capabilities : List String)
deriving DecidableEq

inductive Outcome where
  | ok
  | fail
deriving DecidableEq

structure CacheRecord where
  rev : Nat
  descriptor : Option ServiceDescriptor
  descriptorAt : Int
  outcome : Outcome
  outcomeAt : Int
  reason : Option DegradedReason
deriving DecidableEq

structure Timings where
  negativeMs : Int
  freshMs : Int
  lockWaitMs : Int

def clockSkewAllowanceMs : Int := 5000

/-- Whether a record may be served without another probe. -/
def isFresh (timings : Timings) (record : CacheRecord) (now : Int) : Bool :=
  let age := now - record.outcomeAt
  if age < -clockSkewAllowanceMs then false
  else
    match record.outcome with
    | .ok => age < timings.freshMs
    | .fail => age < timings.negativeMs

def capabilitiesOf : Option ServiceDescriptor → List String
  | none => []
  | some descriptor => descriptor.capabilities

/-- `none` for a record that cannot be: a success without a descriptor. -/
def toState (service : String) (record : CacheRecord) : Option ServiceState :=
  match record.outcome with
  | .ok => record.descriptor.map fun descriptor =>
      .available service descriptor descriptor.capabilities
  | .fail => some (.degraded service (record.reason.getD .network)
      record.descriptor (capabilitiesOf record.descriptor))

def degraded (service : String) (reason : DegradedReason)
    (record : Option CacheRecord) : ServiceState :=
  .degraded service reason (record.bind CacheRecord.descriptor)
    (capabilitiesOf (record.bind CacheRecord.descriptor))

/-- The state of a record, with the reason for one that cannot be. -/
def stateOr (reason : DegradedReason) (service : String)
    (record : CacheRecord) : ServiceState :=
  (toState service record).getD (degraded service reason (some record))

inductive ProbeOutcome where
  | ok (descriptor : ServiceDescriptor)
  | fail (reason : DegradedReason)
deriving DecidableEq

/-- The record a probe leaves.  A failure keeps the descriptor of the record
before. -/
def recordFor (outcome : ProbeOutcome) (previous : Option CacheRecord)
    (now : Int) : CacheRecord :=
  let rev := (previous.map CacheRecord.rev).getD 0 + 1
  match outcome with
  | .ok descriptor =>
      { rev, descriptor := some descriptor, descriptorAt := now, outcome := .ok,
        outcomeAt := now, reason := none }
  | .fail reason =>
      { rev, descriptor := previous.bind CacheRecord.descriptor,
        descriptorAt := (previous.map CacheRecord.descriptorAt).getD 0,
        outcome := .fail, outcomeAt := now, reason := some reason }

/-- What the key holds: a record of this version, or text that is not one, with
the `rev` that the script may still decode from it. -/
inductive Value where
  | record (record : CacheRecord)
  | foreign (raw : String) (rev : Option Nat)
deriving DecidableEq

def maxSafeInteger : Nat := 9007199254740991

namespace Value

def parseRecord : Value → Option CacheRecord
  | .foreign _ _ => none
  | .record found =>
      if 0 < found.rev ∧ found.rev ≤ maxSafeInteger ∧
          0 ≤ found.descriptorAt ∧ 0 ≤ found.outcomeAt then
        some found
      else
        none

def rev : Value → Option Nat
  | .record found => some found.rev
  | .foreign _ rev => rev

end Value

/-- A stored value, with the probe it was written from. -/
structure Stored where
  value : Value
  origin : Option Nat
deriving DecidableEq

/-- A probe that was started.  `started` numbers the probes in the order of their
starts; `removals` counts how often the key had been emptied when the snapshot
was read. -/
structure Probe where
  started : Nat
  snapshot : Option CacheRecord
  removals : Nat
deriving DecidableEq

/-- A write that took effect. -/
structure Write where
  probe : Probe
  outcome : ProbeOutcome
  written : CacheRecord
  replaced : Option Stored
deriving DecidableEq

/-- The entry and the lock of one service.  The counts and the list of writes
are history that no call reads. -/
structure Cache where
  stored : Option Stored
  lock : Option Nat
  probes : Nat
  removals : Nat
  writes : List Write
deriving DecidableEq

namespace Cache

def initial (value : Option Value) : Cache :=
  ⟨value.map fun value => ⟨value, none⟩, none, 0, 0, []⟩

def delete (cache : Cache) : Cache :=
  match cache.stored with
  | none => cache
  | some _ => { cache with stored := none, removals := cache.removals + 1 }

def deleteIfUnchanged (cache : Cache) (value : Value) : Cache :=
  if cache.stored.map Stored.value = some value then cache.delete else cache

/-- The comparison of `SET_CAS`; `none` asks for an absent key. -/
def matches_ (cache : Cache) : Option Nat → Bool
  | none => cache.stored.isNone
  | some rev =>
      match cache.stored with
      | none => false
      | some stored => stored.value.rev = some rev

def write (cache : Cache) (probe : Probe) (outcome : ProbeOutcome)
    (next : CacheRecord) : Cache :=
  { cache with
    stored := some ⟨.record next, some probe.started⟩
    writes := cache.writes ++ [⟨probe, outcome, next, cache.stored⟩] }

def tryAcquireLock (cache : Cache) (token : Nat) : Cache × Bool :=
  match cache.lock with
  | some _ => (cache, false)
  | none => ({ cache with lock := some token }, true)

def releaseLock (cache : Cache) (token : Nat) : Cache :=
  if cache.lock = some token then { cache with lock := none } else cache

end Cache

/-- What a record is read for. -/
inductive Reader where
  | first
  | recheck
  | winner
  | last
  | reread
deriving DecidableEq

/-- The next call of a port. -/
inductive Phase where
  | reading (reader : Reader)
  | discarding (reader : Reader) (value : Value)
  | deleting (reader : Reader)
  | locking
  | sleeping
  | probing (probe : Probe)
  | writing (probe : Probe) (outcome : ProbeOutcome) (next : CacheRecord)
  | releasing
  | finished
deriving DecidableEq

/-- A call of `resolveService`.  `stale` is the record it serves while it
revalidates; a call that has answered goes on in the background. -/
structure Call where
  service : String
  stale : Option CacheRecord
  deadline : Int
  answer : Option ServiceState
  phase : Phase
deriving DecidableEq

/-- What a step does not decide itself: the clock, whether the cache fails,
whether the probe throws when it is called, and its outcome. -/
structure StepInput where
  now : Int
  fails : Bool
  throws : Bool
  outcome : ProbeOutcome
deriving DecidableEq

namespace Call

def start (service : String) : Call :=
  ⟨service, none, 0, none, .reading .first⟩

def at_ (call : Call) (phase : Phase) : Call := { call with phase }

/-- The first answer stands. -/
def answers (call : Call) (state : ServiceState) : Call :=
  { call with answer := call.answer.or (some state) }

def answersUnavailable (call : Call) : Call :=
  call.answers (degraded call.service .cacheUnavailable none)

/-- The stale record, where one is served. -/
def answersStale (call : Call) : Call :=
  match call.stale with
  | none => call
  | some record => call.answers (stateOr .network call.service record)

variable (timings : Timings) (cache : Cache) (call : Call) (input : StepInput)

/-- The probe starts against the snapshot.  A caller with a stale record is
answered then. -/
def beginProbe (snapshot : Option CacheRecord) : Cache × Call :=
  if input.throws then
    (cache, call.answersStale.answersUnavailable.at_ .releasing)
  else
    ({ cache with probes := cache.probes + 1 },
      call.answersStale.at_ (.probing ⟨cache.probes, snapshot, cache.removals⟩))

def afterRead (reader : Reader) (record : Option CacheRecord) : Cache × Call :=
  let fresh := record.filter (isFresh timings · input.now)
  match reader with
  | .first =>
      match fresh, record with
      | some found, _ =>
          (cache, (call.answers (stateOr .network call.service found)).at_
            .finished)
      | none, some _ => (cache, { call.at_ .locking with stale := record })
      | none, none =>
          (cache, { call.at_ .locking with
            deadline := input.now + timings.lockWaitMs })
  | .recheck =>
      match fresh with
      | some found =>
          (cache, (call.answers (stateOr .network call.service found)).at_
            .releasing)
      | none => call.beginProbe cache input record
  | .winner =>
      let state := match record with
        | some found => stateOr .network call.service found
        | none => degraded call.service .network none
      (cache, (call.answers state).at_ .releasing)
  | .last =>
      let state := match record with
        | some found => stateOr .timeout call.service found
        | none => degraded call.service .timeout none
      (cache, (call.answers state).at_ .finished)
  | .reread =>
      match fresh with
      | some found =>
          (cache, (call.answers (stateOr .network call.service found)).at_
            .finished)
      | none => (cache, call.at_ .locking)

/-- A read that throws. -/
def readFails (reader : Reader) : Cache × Call :=
  match reader with
  | .first => (cache, call.answersUnavailable.at_ .finished)
  | .recheck =>
      match call.stale with
      | some _ => call.beginProbe cache input none
      | none => (cache, call.answersUnavailable.at_ .releasing)
  | .winner => (cache, call.answersUnavailable.at_ .releasing)
  | .last => call.afterRead timings cache input .last none
  | .reread => call.afterRead timings cache input .reread none

/-- `cache.get` and the check of `readRecord`. -/
def readStep (reader : Reader) : Cache × Call :=
  match cache.stored with
  | none => call.afterRead timings cache input reader none
  | some stored =>
      match stored.value.parseRecord with
      | none => (cache, call.at_ (.discarding reader stored.value))
      | some record =>
          if (toState call.service record).isNone then
            (cache, call.at_ (.deleting reader))
          else
            call.afterRead timings cache input reader (some record)

def lockStep (id : Nat) : Cache × Call :=
  match cache.tryAcquireLock id with
  | (held, true) => (held, call.at_ (.reading .recheck))
  | (_, false) =>
      match call.stale with
      | some _ => (cache, call.answersStale.at_ .finished)
      | none =>
          if call.deadline ≤ input.now then (cache, call.at_ (.reading .last))
          else (cache, call.at_ .sleeping)

/-- What `settleProbe` does with the outcome before it writes. -/
def probeStep (probe : Probe) : Call :=
  match input.outcome with
  | .fail .unauthorized =>
      (call.answers (degraded call.service .unauthorized probe.snapshot)).at_
        .releasing
  | outcome =>
      call.at_ (.writing probe outcome
        (recordFor outcome probe.snapshot input.now))

/-- The write, fenced on the `rev` of the snapshot. -/
def writeStep (probe : Probe) (outcome : ProbeOutcome) (next : CacheRecord) :
    Cache × Call :=
  if cache.matches_ (probe.snapshot.map CacheRecord.rev) then
    (cache.write probe outcome next,
      (call.answers (stateOr .network call.service next)).at_ .releasing)
  else
    (cache, call.at_ (.reading .winner))

def step (id : Nat) : Option (Cache × Call) :=
  match call.phase with
  | .reading reader =>
      if input.fails then some (call.readFails timings cache input reader)
      else some (call.readStep timings cache input reader)
  | .discarding reader value =>
      if input.fails then some (call.readFails timings cache input reader)
      else
        some (call.afterRead timings (cache.deleteIfUnchanged value) input reader
          none)
  | .deleting reader =>
      if input.fails then some (call.readFails timings cache input reader)
      else some (call.afterRead timings cache.delete input reader none)
  | .locking =>
      if input.fails then
        some (cache, call.answersStale.answersUnavailable.at_ .finished)
      else some (call.lockStep cache input id)
  | .sleeping => some (cache, call.at_ (.reading .reread))
  | .probing probe => some (cache, call.probeStep input probe)
  | .writing probe outcome next =>
      if input.fails then some (cache, call.answersUnavailable.at_ .releasing)
      else some (call.writeStep cache probe outcome next)
  | .releasing =>
      if input.fails then some (cache, call.at_ .finished)
      else some (cache.releaseLock id, call.at_ .finished)
  | .finished => none

end Call

/-- What may expire. -/
inductive Expiry where
  | record
  | lock
deriving DecidableEq

def resolveService (timings : Timings) :
    Program Cache Call StepInput Expiry where
  starts call := call = .start call.service
  step id cache call input := call.step timings cache input id
  outside cache expiry :=
    match expiry with
    | .record => some cache.delete
    | .lock => some { cache with lock := none }

end Paigasus.Discovery
