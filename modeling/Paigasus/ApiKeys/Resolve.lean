import Paigasus.Core.Authn
import Paigasus.Foundation.Transition

/-!
# API-key validation

`resolve` answers from a cache of positive validations or from the database.
Each call is split at its port calls, so any number of resolves, revokes and
archives interleave: cache reads and writes, the key read, the principal read,
the commits and the evictions.  Every port may be unreachable.  The log records
the steps in order, so the position of an event is its time.
-/

namespace Paigasus.ApiKeys

open Foundation Core

/-- The parts of a presented token. -/
structure ParsedToken where
  keyId : Uuid
  secret : List UInt8
deriving DecidableEq

/-- A positive validation, as cached under its key id. -/
structure CachedValidation where
  principalId : PrincipalId
  saStatus : PrincipalStatus
  expiresAt : Option Timestamp
  keyHash : List UInt8
  scopePrn : String
deriving DecidableEq

/-- An API-key row: the key and the hash of its secret. -/
structure KeyRow where
  key : ApiKey
  keyHash : List UInt8
deriving DecidableEq

def invalidToken : ApiKeyDefect → AuthnError
  | .malformed => .invalidToken .malformed
  | .badSecret => .invalidToken .badSignature
  | .revoked => .invalidToken .expired
  | .expired => .invalidToken .expired

/-- How a check of `resolve` ends: it goes on, it refuses, or it refuses after
evicting the cache entry. -/
inductive Verdict (α : Type) where
  | pass (value : α)
  | refuse (error : AuthnError)
  | evictAndRefuse (error : AuthnError)

/-- The key's expiry has been reached at the clock value. -/
def expired (expiresAt : Option Timestamp) (clock : Timestamp) : Bool :=
  match expiresAt with
  | none => false
  | some instant => instant ≤ clock

/-- The cache-hit path: the secret first, then the expiry, then the status. -/
def resolveCached (verify : List UInt8 → List UInt8 → Bool)
    (parsed : ParsedToken) (cached : CachedValidation) (clock : Timestamp) :
    Verdict AuthnPrincipal :=
  if verify parsed.secret cached.keyHash = false then
    .refuse (invalidToken .badSecret)
  else if expired cached.expiresAt clock then
    .evictAndRefuse (invalidToken .expired)
  else if cached.saStatus ≠ .active then
    .refuse .principalInactive
  else
    .pass
      { principalId := cached.principalId
        kind := .serviceAccount
        status := .active
        keyId := parsed.keyId
        expiresAt := cached.expiresAt
        scopePrn := cached.scopePrn }

/-- The first half of the cache-miss path: what the key row decides. -/
def checkKey (verify : List UInt8 → List UInt8 → Bool) (parsed : ParsedToken)
    (found : Option KeyRow) (now : Timestamp) : Verdict KeyRow :=
  match found with
  | none => .refuse (invalidToken .malformed)
  | some row =>
      if verify parsed.secret row.keyHash = false then
        .refuse (invalidToken .badSecret)
      else if row.key.status ≠ .active then
        .evictAndRefuse (invalidToken .revoked)
      else if expired row.key.expiresAt now then
        .evictAndRefuse (invalidToken .expired)
      else
        .pass row

/-- The second half: what the live principal of the key decides. -/
def checkPrincipal (found : Option Principal) : Verdict Principal :=
  match found with
  | none => .refuse .backend
  | some principal =>
      if principal.kind ≠ .serviceAccount then
        .refuse .backend
      else if principal.status ≠ .active then
        .refuse .principalInactive
      else
        .pass principal

def validation (row : KeyRow) (principal : Principal) : CachedValidation :=
  { principalId := principal.id
    saStatus := principal.status
    expiresAt := row.key.expiresAt
    keyHash := row.keyHash
    scopePrn := row.key.scope.canonical }

def answer (parsed : ParsedToken) (row : KeyRow) (principal : Principal) :
    AuthnPrincipal :=
  { principalId := principal.id
    kind := .serviceAccount
    status := .active
    keyId := parsed.keyId
    expiresAt := row.key.expiresAt
    scopePrn := row.key.scope.canonical }

/-- The next port call of a running call. -/
inductive Phase where
  | cacheGet (parsed : ParsedToken)
  | cacheHit (parsed : ParsedToken) (cached : CachedValidation)
  | keyRead (parsed : ParsedToken)
  | principalRead (parsed : ParsedToken) (row : KeyRow) (now : Timestamp)
  | cachePut (parsed : ParsedToken) (row : KeyRow) (principal : Principal)
      (now : Timestamp)
  | respond (parsed : ParsedToken) (now : Timestamp) (answer : AuthnPrincipal)
  | listKeys (serviceAccount : Uuid)
  | evict (keyIds : List Uuid)
  | done

inductive Event where
  | hit (call : Nat) (keyId : Uuid) (instant : Nat)
  | keyRead (call : Nat) (row : KeyRow)
  | principalRead (call : Nat) (principal : Principal)
  | put (call : Nat) (keyId : Uuid) (instant : Nat)
  | accepted (call : Nat) (parsed : ParsedToken) (clock : Timestamp)
      (answer : AuthnPrincipal)
  | revoked (keyId : Uuid)
  | archived (serviceAccount : Uuid)
  | evicted (keyId : Uuid)
deriving DecidableEq

inductive Action where
  | elapse (duration : Nat)
  | insertKey (row : KeyRow)
  | insertPrincipal (principal : Principal)
  | resolve (call : Nat) (parsed : ParsedToken)
  | cacheGet (call : Nat) (reachable : Bool)
  | checkCached (call : Nat) (clock : Timestamp)
  | readKey (call : Nat) (clock : Timestamp)
  | readPrincipal (call : Nat)
  | cachePut (call : Nat) (reachable : Bool)
  | respond (call : Nat)
  | commitRevoke (call : Nat) (keyId : Uuid)
  | commitArchive (call : Nat) (serviceAccount : Uuid)
  | listKeys (call : Nat)
  | evict (call : Nat) (reachable : Bool)
  | fail (call : Nat)

structure World where
  instant : Nat
  keys : List KeyRow
  principals : List Principal
  cache : Uuid → Option (CachedValidation × Nat)
  calls : Nat → Option Phase
  log : List Event

namespace World

def initial : World :=
  { instant := 0
    keys := []
    principals := []
    cache := fun _ => none
    calls := fun _ => none
    log := [] }

def moveTo (world : World) (call : Nat) (phase : Phase) : World :=
  { world with calls := Function.update world.calls call (some phase) }

def record (world : World) (event : Event) : World :=
  { world with log := world.log ++ [event] }

def findKey (world : World) (keyId : Uuid) : Option KeyRow :=
  world.keys.find? fun row => row.key.id = keyId

def findPrincipal (world : World) (id : Uuid) : Option Principal :=
  world.principals.find? fun principal => principal.id.uuid = id

def revokeKey (keyId : Uuid) (row : KeyRow) : KeyRow :=
  if row.key.id = keyId then
    { row with key := { row.key with status := .revoked } }
  else
    row

def disablePrincipal (id : Uuid) (principal : Principal) : Principal :=
  if principal.id.uuid = id then
    { principal with status := .disabled }
  else
    principal

/-- Moves a call to its next phase, or ends it with a refusal. -/
def settle {α : Type} (world : World) (call : Nat) (keyId : Uuid)
    (verdict : Verdict α) (next : α → World) : World :=
  match verdict with
  | .pass value => next value
  | .refuse _ => world.moveTo call .done
  | .evictAndRefuse _ => world.moveTo call (.evict [keyId])

end World

/-- The deployment: the secret check and the lifetime of a cache entry. -/
structure Deployment where
  verify : List UInt8 → List UInt8 → Bool
  ttl : Nat

namespace World

def step (deployment : Deployment) (world : World) : Action → Option World
  | .elapse duration =>
      some { world with instant := world.instant + duration }
  | .insertKey row =>
      if (world.findKey row.key.id).isSome then none
      else some { world with keys := world.keys ++ [row] }
  | .insertPrincipal principal =>
      if (world.findPrincipal principal.id.uuid).isSome then none
      else some { world with principals := world.principals ++ [principal] }
  | .resolve call parsed =>
      match world.calls call with
      | none => some (world.moveTo call (.cacheGet parsed))
      | some _ => none
  | .cacheGet call reachable =>
      match world.calls call with
      | some (.cacheGet parsed) =>
          match reachable, world.cache parsed.keyId with
          | true, some (cached, expiresAt) =>
              if world.instant < expiresAt then
                some ((world.record
                  (.hit call parsed.keyId world.instant)).moveTo call
                    (.cacheHit parsed cached))
              else
                -- An expired entry is dropped and counts as a miss.
                some ({ world with
                  cache := Function.update world.cache parsed.keyId none }.moveTo
                    call (.keyRead parsed))
          | _, _ => some (world.moveTo call (.keyRead parsed))
      | _ => none
  | .checkCached call clock =>
      match world.calls call with
      | some (.cacheHit parsed cached) =>
          some (world.settle call parsed.keyId
            (resolveCached deployment.verify parsed cached clock)
            fun principal =>
              (world.record (.accepted call parsed clock principal)).moveTo
                call .done)
      | _ => none
  | .readKey call clock =>
      match world.calls call with
      | some (.keyRead parsed) =>
          some (world.settle call parsed.keyId
            (checkKey deployment.verify parsed (world.findKey parsed.keyId)
              clock)
            fun row =>
              (world.record (.keyRead call row)).moveTo call
                (.principalRead parsed row clock))
      | _ => none
  | .readPrincipal call =>
      match world.calls call with
      | some (.principalRead parsed row now) =>
          some (world.settle call parsed.keyId
            (checkPrincipal
              (world.findPrincipal row.key.serviceAccountId.uuid))
            fun principal =>
              (world.record (.principalRead call principal)).moveTo call
                (.cachePut parsed row principal now))
      | _ => none
  | .cachePut call reachable =>
      match world.calls call with
      | some (.cachePut parsed row principal now) =>
          let respond := Phase.respond parsed now (answer parsed row principal)
          if reachable then
            some (({ world with
              cache := Function.update world.cache parsed.keyId
                (some (validation row principal,
                  world.instant + deployment.ttl)) }.record
                (.put call parsed.keyId world.instant)).moveTo call respond)
          else
            some (world.moveTo call respond)
      | _ => none
  | .respond call =>
      match world.calls call with
      | some (.respond parsed now principal) =>
          some ((world.record (.accepted call parsed now principal)).moveTo
            call .done)
      | _ => none
  | .commitRevoke call keyId =>
      match world.calls call, world.findKey keyId with
      | none, some _ =>
          some (({ world with
            keys := world.keys.map (revokeKey keyId) }.record
              (.revoked keyId)).moveTo call (.evict [keyId]))
      | _, _ => none
  | .commitArchive call serviceAccount =>
      match world.calls call, world.findPrincipal serviceAccount with
      | none, some _ =>
          some (({ world with
            principals :=
              world.principals.map (disablePrincipal serviceAccount) }.record
              (.archived serviceAccount)).moveTo call
                (.listKeys serviceAccount))
      | _, _ => none
  | .listKeys call =>
      match world.calls call with
      | some (.listKeys serviceAccount) =>
          some (world.moveTo call (.evict
            ((world.keys.filter fun row =>
              row.key.serviceAccountId.uuid = serviceAccount).map
                fun row => row.key.id)))
      | _ => none
  | .evict call reachable =>
      match world.calls call with
      | some (.evict (keyId :: rest)) =>
          if reachable then
            some (({ world with
              cache := Function.update world.cache keyId none }.record
                (.evicted keyId)).moveTo call (.evict rest))
          else
            some (world.moveTo call (.evict rest))
      | some (.evict []) => some (world.moveTo call .done)
      | _ => none
  | .fail call =>
      match world.calls call with
      | some (.keyRead _) | some (.principalRead _ _ _)
      | some (.listKeys _) => some (world.moveTo call .done)
      | _ => none

end World

end Paigasus.ApiKeys
