import Paigasus.Auth.SessionStores
import Paigasus.Foundation.Keyed

/-!
# The two session stores give the same replies

Both stores behave as one machine of independent slots: a session, a lock and a
transaction have a slot each, and a slot is empty from the instant at which its
content expires.
-/

namespace Paigasus.Auth

open Foundation

/-- What a call reads and writes. -/
inductive Target where
  | session (sid : String)
  | lock (sid : String)
  | transaction (txnId : String)
deriving DecidableEq

def StoreCall.target : StoreCall → Target
  | .get sid => .session sid
  | .set sid _ _ _ => .session sid
  | .delete sid => .session sid
  | .tryAcquireLock sid _ _ => .lock sid
  | .releaseLock sid _ => .lock sid
  | .putTransaction txnId _ _ => .transaction txnId
  | .takeTransaction txnId => .transaction txnId

inductive Content where
  | record (record : RecordValue)
  | token (token : String)
  | transaction (transaction : TransactionValue)

structure Held where
  content : Content
  expiresAt : Int

abbrev Slot : Type := Option Held

namespace Slot

/-- The slot at an instant. -/
def liveAt (now : Int) (slot : Slot) : Slot :=
  slot.filter fun held => now < held.expiresAt

def isExpected (expectedRev : Option Rev) (found : Slot) : Bool :=
  match expectedRev, found with
  | none, found => found.isNone
  | some expected, some ⟨.record record, _⟩ => record.rev = expected
  | some _, _ => false

def isToken (token : String) (found : Slot) : Bool :=
  match found with
  | some ⟨.token held, _⟩ => held = token
  | _ => false

/-- The purpose of each call, on what its slot holds at the instant. -/
def step (slot : Slot) (timed : TimedCall) : Slot × StoreReply :=
  let found := slot.liveAt timed.now
  match timed.call with
  | .get _ =>
      match found with
      | some ⟨.record record, _⟩ =>
          if isSessionRecord record.value then
            (found, .record (some record.value))
          else (none, .record none)
      | _ => (found, .record none)
  | .set _ record ttl expectedRev =>
      if isExpected expectedRev found then
        (some ⟨.record record, timed.now + ttl.val⟩, .stored true)
      else (found, .stored false)
  | .delete _ => (none, .done)
  | .tryAcquireLock _ token ttl =>
      match found with
      | some _ => (found, .acquired false)
      | none => (some ⟨.token token, timed.now + ttl.val⟩, .acquired true)
  | .releaseLock _ token =>
      (if isToken token found then none else found, .done)
  | .putTransaction _ transaction ttl =>
      (some ⟨.transaction transaction, timed.now + ttl.val⟩, .done)
  | .takeTransaction _ =>
      match found with
      | some ⟨.transaction transaction, _⟩ =>
          (none, .transaction (some transaction.value))
      | _ => (none, .transaction none)

/-- An expired content stays expired. -/
theorem liveAt_later {earlier now : Int} (order : earlier ≤ now) (slot : Slot) :
    (slot.liveAt earlier).liveAt now = slot.liveAt now := by
  cases slot with
  | none => rfl
  | some held =>
      by_cases live : now < held.expiresAt
      · have before : earlier < held.expiresAt := by omega
        simp [liveAt, Option.filter_some, live, before]
      · by_cases before : earlier < held.expiresAt
        · simp [liveAt, Option.filter_some, live, before]
        · simp [liveAt, Option.filter_some, live, before]

@[simp]
theorem liveAt_liveAt (now : Int) (slot : Slot) :
    (slot.liveAt now).liveAt now = slot.liveAt now :=
  liveAt_later (Int.le_refl now) slot

@[simp]
theorem liveAt_none (now : Int) : liveAt now none = none := rfl

end Slot

/-- The slots of all sessions, locks and transactions. -/
def slots : KeyedMachine Target Slot TimedCall StoreReply where
  key timed := timed.call.target
  step := Slot.step

namespace MemorySessionStore

variable {Value : Type} {map : Table String (Entry Value)} {now : Int}
  {key other : String}

/-- The entry that `#live` finds. -/
def look (map : Table String (Entry Value)) (now : Int) (key : String) :
    Option (Entry Value) :=
  (map.lookup key).filter (Entry.live now)

theorem look_insert (value : Value) (expiresAt : Int) :
    look (map.insert key ⟨value, expiresAt⟩) now key =
      (some ⟨value, expiresAt⟩).filter (Entry.live now) := by
  simp [look]

theorem look_insert_of_ne (distinct : other ≠ key) (entry : Entry Value) :
    look (map.insert key entry) now other = look map now other := by
  simp [look, AList.lookup_insert_ne distinct]

theorem look_erase : look (map.erase key) now key = none := by
  simp [look, AList.lookup_erase]

theorem look_erase_of_ne (distinct : other ≠ key) :
    look (map.erase key) now other = look map now other := by
  simp [look, AList.lookup_erase_ne distinct]

/-- `#live` finds the entry, and deletes only what it does not find. -/
theorem live_spec (map : Table String (Entry Value)) (now : Int)
    (key : String) :
    (live map now key).2 = (look map now key).map Entry.value ∧
      ∀ other, look (live map now key).1 now other = look map now other := by
  unfold live
  split
  case h_1 absent => simp [look, absent]
  case h_2 hit found =>
    split
    case isTrue isLive => simp [look, found, Option.filter_some, isLive]
    case isFalse expired =>
      have nothing : look map now key = none := by
        simp [look, found, Option.filter_some, expired]
      refine ⟨by rw [nothing]; rfl, ?_⟩
      intro other
      by_cases same : other = key
      · rw [same, look_erase, nothing]
      · exact look_erase_of_ne same

theorem look_later {earlier : Int} (order : earlier ≤ now)
    (map : Table String (Entry Value)) (key : String) :
    look map now key =
      (look map earlier key).filter (Entry.live now) := by
  unfold look
  cases map.lookup key with
  | none => rfl
  | some entry =>
      by_cases live : now < entry.expiresAt
      · have before : earlier < entry.expiresAt := by omega
        simp [Entry.live, Option.filter_some, live, before]
      · by_cases before : earlier < entry.expiresAt
        · simp [Entry.live, Option.filter_some, live, before]
        · simp [Entry.live, Option.filter_some, live, before]

/-- The slot that an entry of a map stands for. -/
def shown (content : Value → Content) (found : Option (Entry Value)) : Slot :=
  found.map fun entry => ⟨content entry.value, entry.expiresAt⟩

theorem shown_filter (content : Value → Content)
    (found : Option (Entry Value)) :
    shown content (found.filter (Entry.live now)) =
      (shown content found).liveAt now := by
  cases found with
  | none => rfl
  | some entry =>
      by_cases live : now < entry.expiresAt
      · simp [shown, Slot.liveAt, Entry.live, Option.filter_some, live]
      · simp [shown, Slot.liveAt, Entry.live, Option.filter_some, live]

/-- A map shows the slots of its kind. -/
def Shows (content : Value → Content) (kind : String → Target) (now : Int)
    (map : Table String (Entry Value)) (all : Target → Slot) : Prop :=
  ∀ id, shown content (look map now id) = (all (kind id)).liveAt now

/-- One call changes one entry. -/
structure Changes (content : Value → Content) (now : Int)
    (map after : Table String (Entry Value)) (id : String) (slot : Slot) :
    Prop where
  self : shown content (look after now id) = slot.liveAt now
  others : ∀ other, other ≠ id → look after now other = look map now other

variable {content : Value → Content} {kind : String → Target}
  {all : Target → Slot} {after : Table String (Entry Value)} {slot : Slot}

theorem Shows.later {earlier : Int} (order : earlier ≤ now)
    (shows : Shows content kind earlier map all) :
    Shows content kind now map all := by
  intro id
  rw [look_later order, shown_filter, shows id, Slot.liveAt_later order]

theorem Shows.update (injective : Function.Injective kind) {id : String}
    (shows : Shows content kind now map all)
    (changes : Changes content now map after id slot) :
    Shows content kind now after (Function.update all (kind id) slot) := by
  intro other
  by_cases same : other = id
  · rw [same, Function.update_self, changes.self]
  · rw [Function.update_of_ne (injective.ne same), changes.others other same,
      shows other]

theorem Shows.update_of_ne {target : Target}
    (shows : Shows content kind now map all)
    (distinct : ∀ id, kind id ≠ target) :
    Shows content kind now map (Function.update all target slot) := by
  intro id
  rw [Function.update_of_ne (distinct id), shows id]

theorem changes_insert (value : Value) (expiresAt : Int)
    (same : ∀ other, look after now other = look map now other) :
    Changes content now map (after.insert key ⟨value, expiresAt⟩) key
      (some ⟨content value, expiresAt⟩) where
  self := by
    rw [look_insert, shown_filter]
    rfl
  others other distinct := by
    rw [look_insert_of_ne distinct, same]

theorem changes_erase
    (same : ∀ other, look after now other = look map now other) :
    Changes content now map (after.erase key) key none where
  self := by
    rw [look_erase]
    rfl
  others other distinct := by
    rw [look_erase_of_ne distinct, same]

/-- Reading an entry leaves what it shows. -/
theorem changes_live (key : String) (shows : Shows content kind now map all)
    (same : ∀ other, look after now other = look map now other) :
    Changes content now map after key ((all (kind key)).liveAt now) where
  self := by
    rw [same, shows key, Slot.liveAt_liveAt]
  others other _ := same other

/-- A read finds nothing and its slot is empty, or it finds the content. -/
theorem live_cases (shows : Shows content kind now map all) (id : String) :
    (∃ after, live map now id = (after, none) ∧
      (all (kind id)).liveAt now = none ∧
      ∀ other, look after now other = look map now other) ∨
    ∃ after value expiresAt, live map now id = (after, some value) ∧
      (all (kind id)).liveAt now = some ⟨content value, expiresAt⟩ ∧
      ∀ other, look after now other = look map now other := by
  obtain ⟨found, same⟩ := live_spec map now id
  have seen := shows id
  cases result : live map now id with
  | mk after current =>
      rw [result] at found same
      cases entry : look map now id with
      | none =>
          rw [entry] at found seen
          cases found
          exact .inl ⟨after, rfl, seen.symm, same⟩
      | some hit =>
          rw [entry] at found seen
          cases found
          exact .inr ⟨after, hit.value, hit.expiresAt, rfl, seen.symm, same⟩

theorem get_simulates {records : Table String (Entry RecordValue)}
    (shows : Shows Content.record .session now records all) (sid : String) :
    StoreReply.record (get records now sid).2 =
        (Slot.step (all (.session sid)) ⟨now, .get sid⟩).2 ∧
      Changes Content.record now records (get records now sid).1 sid
        (Slot.step (all (.session sid)) ⟨now, .get sid⟩).1 := by
  rcases live_cases shows sid with
    ⟨after, read, empty, same⟩ | ⟨after, record, expiresAt, read, holds, same⟩
  · have kept := changes_live sid shows same
    rw [empty] at kept
    simp only [get, read, Slot.step, empty]
    exact ⟨trivial, kept⟩
  · have kept := changes_live sid shows same
    rw [holds] at kept
    simp only [get, read, Slot.step, holds]
    split
    case isTrue => exact ⟨rfl, kept⟩
    case isFalse => exact ⟨rfl, changes_erase same⟩

theorem set_simulates {records : Table String (Entry RecordValue)}
    (shows : Shows Content.record .session now records all) (sid : String)
    (record : RecordValue) (ttl : TtlMs) (expectedRev : Option Rev) :
    StoreReply.stored (set records now sid record ttl expectedRev).2 =
        (Slot.step (all (.session sid))
          ⟨now, .set sid record ttl expectedRev⟩).2 ∧
      Changes Content.record now records
        (set records now sid record ttl expectedRev).1 sid
        (Slot.step (all (.session sid))
          ⟨now, .set sid record ttl expectedRev⟩).1 := by
  rcases live_cases shows sid with
    ⟨after, read, empty, same⟩ | ⟨after, found, expiresAt, read, holds, same⟩
  · have kept := changes_live sid shows same
    rw [empty] at kept
    cases expectedRev with
    | none =>
        simp only [set, read, Slot.step, empty, Slot.isExpected]
        exact ⟨rfl, changes_insert record _ same⟩
    | some expected =>
        simp only [set, read, Slot.step, empty, Slot.isExpected]
        exact ⟨rfl, kept⟩
  · have kept := changes_live sid shows same
    rw [holds] at kept
    cases expectedRev with
    | none =>
        simp only [set, read, Slot.step, holds, Slot.isExpected]
        exact ⟨rfl, kept⟩
    | some expected =>
        have rev : isNumber expected.toNumber (found.value.field "rev") =
            decide (found.rev = expected) := by
          rw [found.isRev, isNumber, decide_eq_decide]
          exact Rev.toNumber_inj
        simp only [set, read, Slot.step, holds, Slot.isExpected, rev]
        by_cases isExpected : found.rev = expected
        · simp only [isExpected, decide_true, ↓reduceIte]
          exact ⟨trivial, changes_insert record _ same⟩
        · simp only [isExpected, decide_false, Bool.false_eq_true, ↓reduceIte]
          exact ⟨trivial, kept⟩

theorem tryAcquireLock_simulates {locks : Table String (Entry String)}
    (shows : Shows Content.token .lock now locks all) (sid token : String)
    (ttl : TtlMs) :
    StoreReply.acquired (tryAcquireLock locks now sid token ttl).2 =
        (Slot.step (all (.lock sid)) ⟨now, .tryAcquireLock sid token ttl⟩).2 ∧
      Changes Content.token now locks
        (tryAcquireLock locks now sid token ttl).1 sid
        (Slot.step (all (.lock sid)) ⟨now, .tryAcquireLock sid token ttl⟩).1 := by
  rcases live_cases shows sid with
    ⟨after, read, empty, same⟩ | ⟨after, held, expiresAt, read, holds, same⟩
  · simp only [tryAcquireLock, read, Slot.step, empty]
    exact ⟨trivial, changes_insert token _ same⟩
  · have kept := changes_live sid shows same
    rw [holds] at kept
    simp only [tryAcquireLock, read, Slot.step, holds]
    exact ⟨trivial, kept⟩

theorem releaseLock_simulates {locks : Table String (Entry String)}
    (shows : Shows Content.token .lock now locks all) (sid token : String) :
    Changes Content.token now locks (releaseLock locks now sid token) sid
      (Slot.step (all (.lock sid)) ⟨now, .releaseLock sid token⟩).1 := by
  rcases live_cases shows sid with
    ⟨after, read, empty, same⟩ | ⟨after, held, expiresAt, read, holds, same⟩
  · have kept := changes_live sid shows same
    rw [empty] at kept
    simpa [releaseLock, read, Slot.step, empty, Slot.isToken] using kept
  · have kept := changes_live sid shows same
    rw [holds] at kept
    by_cases isHeld : held = token
    · simpa [releaseLock, read, Slot.step, holds, Slot.isToken, isHeld] using
        changes_erase same
    · simpa [releaseLock, read, Slot.step, holds, Slot.isToken, isHeld] using
        kept

theorem takeTransaction_simulates
    {txns : Table String (Entry TransactionValue)}
    (shows : Shows Content.transaction .transaction now txns all)
    (txnId : String) :
    StoreReply.transaction (takeTransaction txns now txnId).2 =
        (Slot.step (all (.transaction txnId)) ⟨now, .takeTransaction txnId⟩).2 ∧
      Changes Content.transaction now txns (takeTransaction txns now txnId).1
        txnId
        (Slot.step (all (.transaction txnId))
          ⟨now, .takeTransaction txnId⟩).1 := by
  rcases live_cases shows txnId with
    ⟨after, read, empty, same⟩ | ⟨after, found, expiresAt, read, holds, same⟩
  · have kept := changes_live txnId shows same
    rw [empty] at kept
    simp only [takeTransaction, read, Slot.step, empty]
    exact ⟨trivial, kept⟩
  · simp only [takeTransaction, read, Slot.step, holds]
    exact ⟨trivial, changes_erase same⟩

/-- The maps show the slots. -/
structure Related (now : Int) (store : MemorySessionStore)
    (all : Target → Slot) : Prop where
  records : Shows Content.record .session now store.records all
  locks : Shows Content.token .lock now store.locks all
  txns : Shows Content.transaction .transaction now store.txns all

theorem simulates (store : MemorySessionStore) (all : Target → Slot)
    (timed : TimedCall) (related : Related timed.now store all) :
    (store.step timed).2 = (slots.stepAll all timed).2 ∧
      Related timed.now (store.step timed).1 (slots.stepAll all timed).1 := by
  obtain ⟨now, call⟩ := timed
  obtain ⟨records, locks, txns⟩ := related
  have sessions : Function.Injective Target.session := fun _ _ => Target.session.inj
  have lockIds : Function.Injective Target.lock := fun _ _ => Target.lock.inj
  have txnIds : Function.Injective Target.transaction :=
    fun _ _ => Target.transaction.inj
  cases call with
  | get sid =>
      obtain ⟨reply, changes⟩ := get_simulates records sid
      exact ⟨reply, records.update sessions changes,
        locks.update_of_ne nofun, txns.update_of_ne nofun⟩
  | set sid record ttl expectedRev =>
      obtain ⟨reply, changes⟩ :=
        set_simulates records sid record ttl expectedRev
      exact ⟨reply, records.update sessions changes,
        locks.update_of_ne nofun, txns.update_of_ne nofun⟩
  | delete sid =>
      exact ⟨rfl, records.update sessions (changes_erase fun _ => rfl),
        locks.update_of_ne nofun, txns.update_of_ne nofun⟩
  | tryAcquireLock sid token ttl =>
      obtain ⟨reply, changes⟩ := tryAcquireLock_simulates locks sid token ttl
      exact ⟨reply, records.update_of_ne nofun, locks.update lockIds changes,
        txns.update_of_ne nofun⟩
  | releaseLock sid token =>
      have changes := releaseLock_simulates locks sid token
      exact ⟨rfl, records.update_of_ne nofun, locks.update lockIds changes,
        txns.update_of_ne nofun⟩
  | putTransaction txnId transaction ttl =>
      have changes : Changes Content.transaction now store.txns
          (store.txns.insert txnId ⟨transaction, now + ttl.val⟩) txnId
          (some ⟨.transaction transaction, now + ttl.val⟩) :=
        changes_insert transaction _ fun _ => rfl
      exact ⟨rfl, records.update_of_ne nofun, locks.update_of_ne nofun,
        txns.update txnIds changes⟩
  | takeTransaction txnId =>
      obtain ⟨reply, changes⟩ := takeTransaction_simulates txns txnId
      exact ⟨reply, records.update_of_ne nofun, locks.update_of_ne nofun,
        txns.update txnIds changes⟩

theorem Related.later {earlier : Int} {store : MemorySessionStore}
    (order : earlier ≤ now) (related : Related earlier store all) :
    Related now store all :=
  ⟨related.records.later order, related.locks.later order,
    related.txns.later order⟩

end MemorySessionStore

/-- The content has the kind of the target. -/
def Content.isOf : Target → Content → Bool
  | .session _, .record _ => true
  | .lock _, .token _ => true
  | .transaction _, .transaction _ => true
  | _, _ => false

def Slot.Typed (target : Target) (slot : Slot) : Prop :=
  ∀ held, slot = some held → held.content.isOf target = true

theorem Slot.Typed.liveAt {target : Target} {slot : Slot} (now : Int)
    (typed : slot.Typed target) : (slot.liveAt now).Typed target := by
  intro held isHeld
  exact typed held (Option.filter_eq_some_iff.mp isHeld).1

/-- A call leaves content of the kind of its target. -/
theorem Slot.Typed.step {slot : Slot} {timed : TimedCall}
    (typed : slot.Typed timed.call.target) :
    (slot.step timed).1.Typed timed.call.target := by
  have kept := typed.liveAt timed.now
  obtain ⟨now, call⟩ := timed
  cases call with
  | get sid =>
      simp only [Slot.step]
      split
      case h_1 =>
        split
        case isTrue => exact kept
        case isFalse => exact nofun
      case h_2 => exact kept
  | set sid record ttl expectedRev =>
      simp only [Slot.step]
      split
      case isTrue =>
        rintro _ ⟨⟩
        rfl
      case isFalse => exact kept
  | delete sid => exact nofun
  | tryAcquireLock sid token ttl =>
      simp only [Slot.step]
      split
      case h_1 => exact kept
      case h_2 =>
        rintro _ ⟨⟩
        rfl
  | releaseLock sid token =>
      simp only [Slot.step]
      split
      case isTrue => exact nofun
      case isFalse => exact kept
  | putTransaction txnId transaction ttl =>
      rintro _ ⟨⟩
      rfl
  | takeTransaction txnId =>
      simp only [Slot.step]
      split
      case h_1 => exact nofun
      case h_2 => exact nofun

/-- The text under the key of a content. -/
def Content.text : Content → String
  | .record stored => JsonText.stringify stored.value
  | .token held => held
  | .transaction stored => JsonText.stringify stored.value

namespace RedisSessionStore

variable {store : RedisSessionStore} {now : Int} {database after : Redis}
  {all : Target → Slot} {target : Target} {slot : Slot}

def key (store : RedisSessionStore) : Target → String
  | .session sid => store.sessKey sid
  | .lock sid => store.lockKey sid
  | .transaction txnId => store.txnKey txnId

/-- No two targets share a key. -/
theorem key_injective (store : RedisSessionStore) :
    Function.Injective store.key := by
  intro left right same
  have texts := congrArg String.toList same
  cases left with
  | session sid =>
      cases right with
      | session other =>
          have ids : sid.toList = other.toList := by
            simpa [key, sessKey] using texts
          rw [String.toList_inj.mp ids]
      | lock other => simp [key, sessKey, lockKey] at texts
      | transaction other => simp [key, sessKey, txnKey] at texts
  | lock sid =>
      cases right with
      | session other => simp [key, sessKey, lockKey] at texts
      | lock other =>
          have ids : sid.toList = other.toList := by
            simpa [key, lockKey] using texts
          rw [String.toList_inj.mp ids]
      | transaction other => simp [key, lockKey, txnKey] at texts
  | transaction txnId =>
      cases right with
      | session other => simp [key, sessKey, txnKey] at texts
      | lock other => simp [key, lockKey, txnKey] at texts
      | transaction other =>
          have ids : txnId.toList = other.toList := by
            simpa [key, txnKey] using texts
          rw [String.toList_inj.mp ids]

def entry (held : Held) : Redis.Entry :=
  ⟨held.content.text, some held.expiresAt⟩

/-- The key space shows the slots. -/
structure Related (store : RedisSessionStore) (now : Int) (database : Redis)
    (all : Target → Slot) : Prop where
  found : ∀ target,
    database.find now (store.key target) = ((all target).liveAt now).map entry
  typed : ∀ target, (all target).Typed target

theorem map_liveAt (now : Int) (slot : Slot) :
    (slot.liveAt now).map entry =
      (slot.map entry).filter (Redis.Entry.live now) := by
  cases slot with
  | none => rfl
  | some held =>
      by_cases live : now < held.expiresAt
      · simp [Slot.liveAt, entry, Redis.Entry.live, Option.filter_some, live]
      · simp [Slot.liveAt, entry, Redis.Entry.live, Option.filter_some, live]

theorem Related.later {earlier : Int} (order : earlier ≤ now)
    (related : Related store earlier database all) :
    Related store now database all where
  found target := by
    rw [Redis.find_later order, related.found target, ← map_liveAt,
      Slot.liveAt_later order]
  typed := related.typed

/-- One call changes one key. -/
structure Changes (now : Int) (database after : Redis) (key : String)
    (slot : Slot) : Prop where
  self : after.find now key = (slot.liveAt now).map entry
  others : ∀ other, other ≠ key → after.find now other = database.find now other

theorem changes_setPx (database : Redis) (now : Int) (key : String)
    (held : Held) :
    Changes now database
      (database.setPx key (held.content.text) held.expiresAt) key
      (some held) where
  self := by
    rw [Redis.find_setPx, map_liveAt]
    rfl
  others other distinct := Redis.find_setPx_of_ne distinct _ _

theorem changes_del (database : Redis) (now : Int) (key : String) :
    Changes now database (database.del key) key none where
  self := by
    rw [Redis.find_del]
    rfl
  others other distinct := Redis.find_del_of_ne distinct

theorem Related.unchanged (related : Related store now database all)
    (target : Target) :
    Changes now database database (store.key target)
      ((all target).liveAt now) where
  self := by rw [related.found target, Slot.liveAt_liveAt]
  others _ _ := rfl

theorem Related.get (related : Related store now database all)
    (target : Target) :
    database.get now (store.key target) =
      ((all target).liveAt now).map fun held => held.content.text := by
  rw [Redis.get, related.found target, Option.map_map]
  rfl

/-- A slot is empty, or holds content of the kind of its target. -/
theorem Related.cases (related : Related store now database all)
    (target : Target) :
    (all target).liveAt now = none ∨
      ∃ held, (all target).liveAt now = some held ∧
        held.content.isOf target = true := by
  cases found : (all target).liveAt now with
  | none => exact .inl rfl
  | some held =>
      exact .inr ⟨held, rfl, (related.typed target).liveAt now held found⟩

theorem get_simulates (related : Related store now database all)
    (sid : String) :
    StoreReply.record (store.get database now sid).2 =
        (Slot.step (all (.session sid)) ⟨now, .get sid⟩).2 ∧
      Changes now database (store.get database now sid).1 (store.sessKey sid)
        (Slot.step (all (.session sid)) ⟨now, .get sid⟩).1 := by
  have read := related.get (.session sid)
  have kept := related.unchanged (.session sid)
  have isKey : store.key (.session sid) = store.sessKey sid := rfl
  rw [isKey] at read kept
  rcases related.cases (.session sid) with empty | ⟨⟨content, expiresAt⟩, holds, kind⟩
  · rw [empty] at read kept
    simp only [get, read, Slot.step, empty, Option.map_none]
    exact ⟨trivial, kept⟩
  · cases content with
    | token => cases kind
    | transaction => cases kind
    | record record =>
        rw [holds] at read kept
        simp only [get, read, Slot.step, holds, Option.map_some, Content.text,
          JsonText.parse_stringify record.wellFormed]
        split
        case isTrue => exact ⟨rfl, kept⟩
        case isFalse => exact ⟨rfl, changes_del database now _⟩

theorem tonumber_expectedArgument (expected : Rev) :
    tonumber (expectedArgument (some expected)) = some expected.toNumber := by
  have read : readNumber (expected.toNumber.text ++ []) =
      some (expected.toNumber, []) := readNumber_text _ rfl
  rw [List.append_nil] at read
  simp [tonumber, expectedArgument, read]

theorem expectedArgument_ne (expected : Rev) :
    expectedArgument (some expected) ≠ "" := by
  obtain ⟨first, others, written, _⟩ := expected.toNumber.text_starts
  intro same
  have texts := congrArg String.toList same
  simp [expectedArgument, written] at texts

theorem set_simulates (related : Related store now database all)
    (reads : ∀ record : RecordValue,
      store.decodeRev (JsonText.stringify record.value) =
        some record.rev.toNumber)
    (sid : String) (record : RecordValue) (ttl : TtlMs)
    (expectedRev : Option Rev) :
    StoreReply.stored (store.setCas database now (store.sessKey sid)
        (JsonText.stringify record.value) ttl
        (expectedArgument expectedRev)).2 =
        (Slot.step (all (.session sid))
          ⟨now, .set sid record ttl expectedRev⟩).2 ∧
      Changes now database (store.setCas database now (store.sessKey sid)
        (JsonText.stringify record.value) ttl
        (expectedArgument expectedRev)).1 (store.sessKey sid)
        (Slot.step (all (.session sid))
          ⟨now, .set sid record ttl expectedRev⟩).1 := by
  have read := related.get (.session sid)
  have kept := related.unchanged (.session sid)
  have isKey : store.key (.session sid) = store.sessKey sid := rfl
  rw [isKey] at read kept
  have written : Changes now database
      (database.setPx (store.sessKey sid) (JsonText.stringify record.value)
        (now + ttl.val)) (store.sessKey sid)
      (some ⟨.record record, now + ttl.val⟩) :=
    changes_setPx database now _ ⟨.record record, now + ttl.val⟩
  rcases related.cases (.session sid) with
    empty | ⟨⟨content, expiresAt⟩, holds, kind⟩
  · rw [empty] at read kept
    cases expectedRev with
    | none =>
        simp [setCas, read, Slot.step, empty, Slot.isExpected,
          expectedArgument, written]
    | some expected =>
        simp [setCas, read, Slot.step, empty, Slot.isExpected,
          expectedArgument_ne, kept]
  · cases content with
    | token => cases kind
    | transaction => cases kind
    | record current =>
        rw [holds] at read kept
        cases expectedRev with
        | none =>
            simp [setCas, read, Slot.step, holds, Slot.isExpected,
              expectedArgument, kept]
        | some expected =>
            have decoded : (database.get now (store.sessKey sid)).bind
                store.decodeRev = some current.rev.toNumber := by
              rw [read]
              exact reads current
            have same : current.rev.toNumber = expected.toNumber ↔
                current.rev = expected := Rev.toNumber_inj
            by_cases isExpected : current.rev = expected
            · simp [setCas, decoded, Slot.step, holds, Slot.isExpected,
                expectedArgument_ne, tonumber_expectedArgument, isExpected,
                written]
            · simp [setCas, decoded, Slot.step, holds, Slot.isExpected,
                expectedArgument_ne, tonumber_expectedArgument, same,
                isExpected, kept]

theorem tryAcquireLock_simulates (related : Related store now database all)
    (sid token : String) (ttl : TtlMs) :
    StoreReply.acquired (database.setNxPx now (store.lockKey sid) token
        (now + ttl.val)).2 =
        (Slot.step (all (.lock sid)) ⟨now, .tryAcquireLock sid token ttl⟩).2 ∧
      Changes now database (database.setNxPx now (store.lockKey sid) token
        (now + ttl.val)).1 (store.lockKey sid)
        (Slot.step (all (.lock sid)) ⟨now, .tryAcquireLock sid token ttl⟩).1 := by
  have read := related.get (.lock sid)
  have kept := related.unchanged (.lock sid)
  have isKey : store.key (.lock sid) = store.lockKey sid := rfl
  rw [isKey] at read kept
  rcases related.cases (.lock sid) with empty | ⟨held, holds, _⟩
  · rw [empty] at read
    simp only [Redis.setNxPx, read, Slot.step, empty, Option.map_none]
    exact ⟨trivial, changes_setPx database now _ ⟨.token token, _⟩⟩
  · rw [holds] at read kept
    simp only [Redis.setNxPx, read, Slot.step, holds, Option.map_some]
    exact ⟨trivial, kept⟩

theorem unlock_simulates (related : Related store now database all)
    (sid token : String) :
    Changes now database (unlock database now (store.lockKey sid) token)
      (store.lockKey sid)
      (Slot.step (all (.lock sid)) ⟨now, .releaseLock sid token⟩).1 := by
  have read := related.get (.lock sid)
  have kept := related.unchanged (.lock sid)
  have isKey : store.key (.lock sid) = store.lockKey sid := rfl
  rw [isKey] at read kept
  rcases related.cases (.lock sid) with
    empty | ⟨⟨content, expiresAt⟩, holds, kind⟩
  · rw [empty] at read kept
    simpa [unlock, read, Slot.step, empty, Slot.isToken] using kept
  · cases content with
    | record => cases kind
    | transaction => cases kind
    | token held =>
        rw [holds] at read kept
        by_cases isHeld : held = token
        · simpa [unlock, read, Slot.step, holds, Slot.isToken, isHeld,
            Content.text] using changes_del database now (store.lockKey sid)
        · simpa [unlock, read, Slot.step, holds, Slot.isToken, isHeld,
            Content.text] using kept

theorem takeTransaction_simulates (related : Related store now database all)
    (txnId : String) :
    (store.takeTransaction database now txnId).2 =
        (Slot.step (all (.transaction txnId)) ⟨now, .takeTransaction txnId⟩).2 ∧
      Changes now database (store.takeTransaction database now txnId).1
        (store.txnKey txnId)
        (Slot.step (all (.transaction txnId))
          ⟨now, .takeTransaction txnId⟩).1 := by
  have read := related.get (.transaction txnId)
  have kept := related.unchanged (.transaction txnId)
  have isKey : store.key (.transaction txnId) = store.txnKey txnId := rfl
  rw [isKey] at read kept
  rcases related.cases (.transaction txnId) with
    empty | ⟨⟨content, expiresAt⟩, holds, kind⟩
  · rw [empty] at read kept
    simp only [takeTransaction, takeTxn, read, Slot.step, empty,
      Option.map_none]
    exact ⟨trivial, kept⟩
  · cases content with
    | record => cases kind
    | token => cases kind
    | transaction transaction =>
        rw [holds] at read
        simp only [takeTransaction, takeTxn, read, Slot.step, holds,
          Option.map_some, Content.text,
          JsonText.parse_stringify transaction.wellFormed]
        exact ⟨trivial, changes_del database now _⟩

theorem Related.update (related : Related store now database all)
    (typed : slot.Typed target)
    (changes : Changes now database after (store.key target) slot) :
    Related store now after (Function.update all target slot) where
  found other := by
    by_cases same : other = target
    · rw [same, Function.update_self, changes.self]
    · rw [Function.update_of_ne same,
        changes.others _ (store.key_injective.ne same), related.found other]
  typed other := by
    by_cases same : other = target
    · rw [same, Function.update_self]
      exact typed
    · rw [Function.update_of_ne same]
      exact related.typed other

theorem simulates (reads : ∀ record : RecordValue,
      store.decodeRev (JsonText.stringify record.value) =
        some record.rev.toNumber)
    (database : Redis) (all : Target → Slot) (timed : TimedCall)
    (related : Related store timed.now database all) :
    (store.step database timed).2 = (slots.stepAll all timed).2 ∧
      Related store timed.now (store.step database timed).1
        (slots.stepAll all timed).1 := by
  have typed : ((all timed.call.target).step timed).1.Typed
      timed.call.target := (related.typed timed.call.target).step
  obtain ⟨now, call⟩ := timed
  cases call with
  | get sid =>
      obtain ⟨reply, changes⟩ := get_simulates related sid
      exact ⟨reply, related.update typed changes⟩
  | set sid record ttl expectedRev =>
      obtain ⟨reply, changes⟩ :=
        set_simulates related reads sid record ttl expectedRev
      exact ⟨reply, related.update typed changes⟩
  | delete sid =>
      exact ⟨rfl, related.update typed (changes_del database now _)⟩
  | tryAcquireLock sid token ttl =>
      obtain ⟨reply, changes⟩ := tryAcquireLock_simulates related sid token ttl
      exact ⟨reply, related.update typed changes⟩
  | releaseLock sid token =>
      exact ⟨rfl, related.update typed (unlock_simulates related sid token)⟩
  | putTransaction txnId transaction ttl =>
      have changes := changes_setPx database now (store.txnKey txnId)
        ⟨.transaction transaction, now + ttl.val⟩
      exact ⟨rfl, related.update typed changes⟩
  | takeTransaction txnId =>
      obtain ⟨reply, changes⟩ := takeTransaction_simulates related txnId
      exact ⟨reply, related.update typed changes⟩

end RedisSessionStore

section Agreement

variable {calls : List TimedCall}

/-- The calls come at instants that do not decrease. -/
def Ordered (calls : List TimedCall) : Prop :=
  (calls.map TimedCall.now).Pairwise (· ≤ ·)

theorem Ordered.start (ordered : Ordered calls) : ∃ start : Int,
    (start :: calls.map TimedCall.now).Pairwise (· ≤ ·) := by
  cases calls with
  | nil => exact ⟨0, List.pairwise_singleton _ _⟩
  | cons call calls =>
      refine ⟨call.now, List.pairwise_cons.mpr ⟨?_, ordered⟩⟩
      intro instant member
      rcases List.mem_cons.mp member with rfl | later
      · exact Int.le_refl _
      · exact (List.pairwise_cons.mp ordered).1 instant later

theorem Ordered.filter (chosen : TimedCall → Bool) (ordered : Ordered calls) :
    Ordered (calls.filter chosen) :=
  List.Pairwise.sublist (List.filter_sublist.map _) ordered

theorem MemorySessionStore.replies_eq (ordered : Ordered calls) :
    replies MemorySessionStore.step .empty calls =
      replies slots.stepAll (fun _ => none) calls := by
  obtain ⟨start, ordered⟩ := ordered.start
  have later : ∀ earlier now store all, earlier ≤ now →
      Related earlier store all → Related now store all :=
    fun _ _ _ _ order related => related.later order
  have initial : Related start .empty fun _ => none :=
    ⟨fun _ => rfl, fun _ => rfl, fun _ => rfl⟩
  exact KeyedMachine.replies_eq later simulates initial ordered

theorem RedisSessionStore.replies_eq {store : RedisSessionStore}
    (reads : ∀ record : RecordValue,
      store.decodeRev (JsonText.stringify record.value) =
        some record.rev.toNumber)
    (ordered : Ordered calls) :
    replies store.step ∅ calls =
      replies slots.stepAll (fun _ => none) calls := by
  obtain ⟨start, ordered⟩ := ordered.start
  have later : ∀ earlier now database all, earlier ≤ now →
      Related store earlier database all → Related store now database all :=
    fun _ _ _ _ order related => related.later order
  have initial : Related store start ∅ fun _ => none :=
    ⟨fun _ => rfl, fun _ => nofun⟩
  exact KeyedMachine.replies_eq later (simulates reads) initial ordered

/-- The two stores give the same replies to every sequence of calls, and the
replies for one session, lock or transaction are those of its own calls alone. -/
theorem session_stores_agree (store : RedisSessionStore)
    (reads : ∀ record : RecordValue,
      store.decodeRev (JsonText.stringify record.value) =
        some record.rev.toNumber)
    (calls : List TimedCall)
    (ordered : (calls.map TimedCall.now).Pairwise (· ≤ ·)) :
    replies MemorySessionStore.step .empty calls =
        replies store.step ∅ calls ∧
      ∀ target, let chosen := fun timed : TimedCall =>
          decide (timed.call.target = target)
        repliesTo chosen calls (replies MemorySessionStore.step .empty calls) =
            replies MemorySessionStore.step .empty (calls.filter chosen) ∧
          repliesTo chosen calls (replies store.step ∅ calls) =
            replies store.step ∅ (calls.filter chosen) := by
  have memory := MemorySessionStore.replies_eq ordered
  have redis := RedisSessionStore.replies_eq reads ordered
  refine ⟨memory.trans redis.symm, ?_⟩
  intro target chosen
  have own := slots.repliesTo_key target (fun _ => none) calls
  have filtered : Ordered (calls.filter chosen) := Ordered.filter chosen ordered
  rw [memory, redis, MemorySessionStore.replies_eq filtered,
    RedisSessionStore.replies_eq reads filtered]
  exact ⟨own, own⟩

end Agreement

def sampleFields (rev : Rev) : List (String × JsValue) :=
  [("version", .number 2), ("rev", .number rev.toNumber),
    ("accessToken", .string "access"), ("accessExpiresAt", .number 1000),
    ("absoluteExpiresAt", .number 2000), ("idToken", .string "id"),
    ("idTokenClaims", .object [("iss", .string "issuer"),
      ("sub", .string "subject")]),
    ("principal", .object [("principalPrn", .null),
      ("issuer", .string "issuer"), ("subject", .string "subject"),
      ("grantsAvailable", .bool true), ("memberships", .array []),
      ("roleGrants", .array [])])]

theorem sampleFields_wellFormed (rev : Rev) :
    (JsValue.object (sampleFields rev)).WellFormed := by
  have names : (sampleFields rev).map Prod.fst = ["version", "rev",
      "accessToken", "accessExpiresAt", "absoluteExpiresAt", "idToken",
      "idTokenClaims", "principal"] := rfl
  refine .object (names ▸ by decide) ?_
  simp only [sampleFields, List.forall_mem_cons]
  refine ⟨.number _, .number _, .string _, .number _, .number _, .string _,
    ?_, ?_, nofun⟩
  · refine .object (by decide) ?_
    simp only [List.forall_mem_cons]
    exact ⟨.string _, .string _, nofun⟩
  · refine .object (by decide) ?_
    simp only [List.forall_mem_cons]
    exact ⟨.null, .string _, .string _, .bool _, .array nofun, .array nofun,
      nofun⟩

def sampleValue (rev : Rev) : RecordValue :=
  ⟨.object (sampleFields rev), rev, sampleFields_wellFormed rev, rfl⟩

/-- A decoder that parses the text and reads its rev. -/
def sampleStore : RedisSessionStore where
  keyPrefix := "paigasus:"
  decodeRev text :=
    match (JsonText.parse text).bind (JsValue.field "rev") with
    | some (.number rev) => some rev
    | _ => none

def hundredMs : TtlMs := ⟨100, by decide⟩

/-- The record is fenced, then it expires; the lock is not released by another
token. -/
def sampleCalls : List TimedCall :=
  [⟨0, .set "s" (sampleValue 0) hundredMs none⟩,
    ⟨10, .set "s" (sampleValue 1) hundredMs (some 0)⟩,
    ⟨20, .set "s" (sampleValue 1) hundredMs (some 0)⟩,
    ⟨30, .tryAcquireLock "s" "a" hundredMs⟩,
    ⟨40, .releaseLock "s" "b"⟩,
    ⟨50, .tryAcquireLock "s" "b" hundredMs⟩,
    ⟨110, .get "s"⟩]

theorem session_stores_agree_sample :
    replies sampleStore.step ∅ sampleCalls =
      [.stored true, .stored true, .stored false, .acquired true, .done,
        .acquired false, .record none] := by
  have reads : ∀ record : RecordValue,
      sampleStore.decodeRev (JsonText.stringify record.value) =
        some record.rev.toNumber := by
    intro record
    simp [sampleStore, JsonText.parse_stringify record.wellFormed,
      record.isRev]
  have agree := session_stores_agree sampleStore reads sampleCalls (by decide)
  rw [← agree.1]
  rfl

end Paigasus.Auth
