import Paigasus.Foundation.JsonText
import Paigasus.Foundation.Redis

/-!
# The two session stores

`MemorySessionStore` over three maps with lazy expiry, and `RedisSessionStore`
over one key space of texts with its three scripts.  Every call comes with the
instant at which it runs.
-/

namespace Paigasus.Auth

open Foundation

section Predicate

def isObject : JsValue → Bool
  | .object _ => true
  | _ => false

/-- `Number.isFinite`. -/
def isFinite : Option JsValue → Bool
  | some (.number _) => true
  | _ => false

def isString : Option JsValue → Bool
  | some (.string _) => true
  | _ => false

def isBoolean : Option JsValue → Bool
  | some (.bool _) => true
  | _ => false

def isNull : Option JsValue → Bool
  | some .null => true
  | _ => false

def isNumber (number : Decimal) : Option JsValue → Bool
  | some (.number value) => value = number
  | _ => false

def isNonemptyString : Option JsValue → Bool
  | some (.string text) => text ≠ ""
  | _ => false

/-- An array whose items all meet the condition. -/
def isArrayOf (condition : JsValue → Bool) : Option JsValue → Bool
  | some (.array items) => items.all condition
  | _ => false

def isClaims (claims : JsValue) : Bool :=
  isObject claims && isString (claims.field "iss") &&
    isString (claims.field "sub")

def isMembership (membership : JsValue) : Bool :=
  isObject membership && isString (membership.field "id") &&
    isString (membership.field "principalPrn") &&
    isString (membership.field "nodePrn")

def isRoleGrant (grant : JsValue) : Bool :=
  isObject grant && isString (grant.field "scopePrn") &&
    isString (grant.field "roleKey")

def isPrincipal (principal : JsValue) : Bool :=
  isObject principal &&
    (isNull (principal.field "principalPrn") ||
      isString (principal.field "principalPrn")) &&
    isString (principal.field "issuer") &&
    isString (principal.field "subject") &&
    isBoolean (principal.field "grantsAvailable") &&
    isArrayOf isMembership (principal.field "memberships") &&
    isArrayOf isRoleGrant (principal.field "roleGrants")

def isSessionRecord (value : JsValue) : Bool :=
  isObject value && isNumber 2 (value.field "version") &&
    isFinite (value.field "rev") && isFinite (value.field "accessExpiresAt") &&
    isFinite (value.field "absoluteExpiresAt") &&
    isString (value.field "accessToken") &&
    ((value.field "refreshToken").isNone ||
      isString (value.field "refreshToken")) &&
    isNonemptyString (value.field "idToken") &&
    (value.field "idTokenClaims").any isClaims &&
    (value.field "principal").any isPrincipal

end Predicate

/-- A non-negative safe integer. -/
abbrev Rev : Type := Fin (2 ^ 53)

def Rev.toNumber (rev : Rev) : Decimal := .ofScientific false rev.val 0

theorem Rev.toNumber_inj {left right : Rev} :
    left.toNumber = right.toNumber ↔ left = right := by
  constructor
  · intro same
    exact Fin.ext (Decimal.ofScientific_injective same)
  · rintro rfl
    rfl

/-- A record to store, as a JSON value; it need not pass `isSessionRecord`. -/
structure RecordValue where
  value : JsValue
  rev : Rev
  wellFormed : value.WellFormed
  isRev : value.field "rev" = some (.number rev.toNumber)

structure TransactionValue where
  value : JsValue
  wellFormed : value.WellFormed

/-- A positive number of milliseconds. -/
abbrev TtlMs : Type := { milliseconds : Nat // 0 < milliseconds }

inductive StoreCall where
  | get (sid : String)
  | set (sid : String) (record : RecordValue) (ttl : TtlMs)
      (expectedRev : Option Rev)
  | delete (sid : String)
  | tryAcquireLock (sid token : String) (ttl : TtlMs)
  | releaseLock (sid token : String)
  | putTransaction (txnId : String) (transaction : TransactionValue)
      (ttl : TtlMs)
  | takeTransaction (txnId : String)

/-- A call at the instant that the clock shows. -/
structure TimedCall where
  now : Int
  call : StoreCall

inductive StoreReply where
  | record (found : Option JsValue)
  | stored (written : Bool)
  | acquired (held : Bool)
  | transaction (found : Option JsValue)
  | done
  | unavailable

namespace MemorySessionStore

structure Entry (Value : Type) where
  value : Value
  expiresAt : Int

def Entry.live {Value : Type} (now : Int) (entry : Entry Value) : Bool :=
  now < entry.expiresAt

end MemorySessionStore

structure MemorySessionStore where
  records : Table String (MemorySessionStore.Entry RecordValue)
  locks : Table String (MemorySessionStore.Entry String)
  txns : Table String (MemorySessionStore.Entry TransactionValue)

namespace MemorySessionStore

def empty : MemorySessionStore := ⟨∅, ∅, ∅⟩

/-- `#live`: an entry that has expired is deleted. -/
def live {Value : Type} (map : Table String (Entry Value)) (now : Int)
    (key : String) : Table String (Entry Value) × Option Value :=
  match map.lookup key with
  | none => (map, none)
  | some hit =>
      if hit.live now then (map, some hit.value) else (map.erase key, none)

/-- The records afterwards, and what is found. -/
def get (records : Table String (Entry RecordValue)) (now : Int)
    (sid : String) : Table String (Entry RecordValue) × Option JsValue :=
  match live records now sid with
  | (records, none) => (records, none)
  | (records, some record) =>
      if isSessionRecord record.value then (records, some record.value)
      else (records.erase sid, none)

def set (records : Table String (Entry RecordValue)) (now : Int) (sid : String)
    (record : RecordValue) (ttl : TtlMs) (expectedRev : Option Rev) :
    Table String (Entry RecordValue) × Bool :=
  let (records, current) := live records now sid
  let expected : Bool :=
    match expectedRev with
    | none => current.isNone
    | some expected =>
        match current with
        | none => false
        | some current =>
            isNumber expected.toNumber (current.value.field "rev")
  if expected then (records.insert sid ⟨record, now + ttl.val⟩, true)
  else (records, false)

def tryAcquireLock (locks : Table String (Entry String)) (now : Int)
    (sid token : String) (ttl : TtlMs) : Table String (Entry String) × Bool :=
  match live locks now sid with
  | (locks, some _) => (locks, false)
  | (locks, none) => (locks.insert sid ⟨token, now + ttl.val⟩, true)

def releaseLock (locks : Table String (Entry String)) (now : Int)
    (sid token : String) : Table String (Entry String) :=
  let (locks, held) := live locks now sid
  if held = some token then locks.erase sid else locks

def takeTransaction (txns : Table String (Entry TransactionValue)) (now : Int)
    (txnId : String) :
    Table String (Entry TransactionValue) × Option JsValue :=
  match live txns now txnId with
  | (txns, none) => (txns, none)
  | (txns, some transaction) => (txns.erase txnId, some transaction.value)

def step (store : MemorySessionStore) (timed : TimedCall) :
    MemorySessionStore × StoreReply :=
  match timed.call with
  | .get sid =>
      let (records, found) := get store.records timed.now sid
      ({ store with records }, .record found)
  | .set sid record ttl expectedRev =>
      let (records, written) :=
        set store.records timed.now sid record ttl expectedRev
      ({ store with records }, .stored written)
  | .delete sid => ({ store with records := store.records.erase sid }, .done)
  | .tryAcquireLock sid token ttl =>
      let (locks, held) := tryAcquireLock store.locks timed.now sid token ttl
      ({ store with locks }, .acquired held)
  | .releaseLock sid token =>
      ({ store with locks := releaseLock store.locks timed.now sid token },
        .done)
  | .putTransaction txnId transaction ttl =>
      ({ store with
          txns := store.txns.insert txnId ⟨transaction, timed.now + ttl.val⟩ },
        .done)
  | .takeTransaction txnId =>
      let (txns, found) := takeTransaction store.txns timed.now txnId
      ({ store with txns }, .transaction found)

end MemorySessionStore

/-- What the store needs besides Redis: the prefix of its keys, and the number
that `cjson.decode` and `tonumber` give for the rev of a text, if both succeed. -/
structure RedisSessionStore where
  keyPrefix : String
  decodeRev : String → Option Decimal

namespace RedisSessionStore

variable (store : RedisSessionStore)

def sessKey (sid : String) : String := store.keyPrefix ++ ("pgs:sess:" ++ sid)

def lockKey (sid : String) : String := store.keyPrefix ++ ("pgs:lock:" ++ sid)

def txnKey (txnId : String) : String := store.keyPrefix ++ ("pgs:txn:" ++ txnId)

/-- Lua's `tonumber` on the decimal digits of a rev. -/
def tonumber (text : String) : Option Decimal :=
  match readNumber text.toList with
  | some (number, []) => some number
  | _ => none

/-- The third argument of the script: empty, or the expected rev. -/
def expectedArgument (expectedRev : Option Rev) : String :=
  match expectedRev with
  | none => ""
  | some expected => String.ofList expected.toNumber.text

/-- The script `SET_CAS`. -/
def setCas (database : Redis) (now : Int) (key text : String) (ttl : TtlMs)
    (argument : String) : Redis × Bool :=
  let current := database.get now key
  let allowed : Bool :=
    if argument = "" then current.isNone
    else
      match current.bind store.decodeRev with
      | none => false
      | some rev => some rev = tonumber argument
  if allowed then (database.setPx key text (now + ttl.val), true)
  else (database, false)

/-- The script `UNLOCK`. -/
def unlock (database : Redis) (now : Int) (key token : String) : Redis :=
  if database.get now key = some token then database.del key else database

/-- The script `TAKE_TXN`. -/
def takeTxn (database : Redis) (now : Int) (key : String) :
    Redis × Option String :=
  match database.get now key with
  | none => (database, none)
  | some value => (database.del key, some value)

/-- A text that is no session record is absent and deleted. -/
def get (database : Redis) (now : Int) (sid : String) :
    Redis × Option JsValue :=
  let key := store.sessKey sid
  match database.get now key with
  | none => (database, none)
  | some raw =>
      match JsonText.parse raw with
      | none => (database.del key, none)
      | some parsed =>
          if isSessionRecord parsed then (database, some parsed)
          else (database.del key, none)

/-- A text that does not parse makes the call fail. -/
def takeTransaction (database : Redis) (now : Int) (txnId : String) :
    Redis × StoreReply :=
  match takeTxn database now (store.txnKey txnId) with
  | (database, none) => (database, .transaction none)
  | (database, some raw) =>
      match JsonText.parse raw with
      | none => (database, .unavailable)
      | some transaction => (database, .transaction (some transaction))

def step (database : Redis) (timed : TimedCall) : Redis × StoreReply :=
  match timed.call with
  | .get sid =>
      let (database, found) := store.get database timed.now sid
      (database, .record found)
  | .set sid record ttl expectedRev =>
      let (database, written) :=
        store.setCas database timed.now (store.sessKey sid)
          (JsonText.stringify record.value) ttl (expectedArgument expectedRev)
      (database, .stored written)
  | .delete sid => (database.del (store.sessKey sid), .done)
  | .tryAcquireLock sid token ttl =>
      let (database, held) := database.setNxPx timed.now (store.lockKey sid)
        token (timed.now + ttl.val)
      (database, .acquired held)
  | .releaseLock sid token =>
      (unlock database timed.now (store.lockKey sid) token, .done)
  | .putTransaction txnId transaction ttl =>
      (database.setPx (store.txnKey txnId)
        (JsonText.stringify transaction.value) (timed.now + ttl.val), .done)
  | .takeTransaction txnId => store.takeTransaction database timed.now txnId

end RedisSessionStore

end Paigasus.Auth
