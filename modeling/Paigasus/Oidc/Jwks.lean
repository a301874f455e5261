import Paigasus.Core.Authn
import Paigasus.Foundation.Processes
import Mathlib.Tactic.Linarith

/-!
# Key sets of the identity providers

`key_for` reads the cache, and on a miss once more under the lock of the
issuer, whose guard also keeps the instant of the last fetch.  Calls of any
number interleave at every cache access, clock reading and fetch; each of them
may be dropped, and the backend of the cache may change by itself.
-/

namespace Paigasus.Oidc

open Foundation Core

structure Jwk where
  keyId : Option String
  material : String
deriving DecidableEq

structure CachedJwks where
  keys : List Jwk
  jwksUri : String
  fetchedAt : Int
deriving DecidableEq

def findKid (keys : List Jwk) (kid : String) : Option Jwk :=
  keys.find? fun jwk => jwk.keyId = some kid

structure JwksProvider where
  ttl : Int
  cooldown : Int

def JwksProvider.isFresh (provider : JwksProvider) (entry : CachedJwks)
    (now : Int) : Bool :=
  now - entry.fetchedAt < provider.ttl

/-- The key of a fresh entry. -/
def JwksProvider.hit (provider : JwksProvider) (entry : CachedJwks)
    (kid : String) (now : Int) : Option Jwk :=
  if provider.isFresh entry now then findKid entry.keys kid else none

/-- The next access of a call; from `relookup` to `storing` it holds the lock
of its issuer. -/
inductive KeyPhase where
  | lookup
  | checkHit (entry : Option CachedJwks)
  | waiting
  | relookup
  | recheckHit (entry : Option CachedJwks)
  | freshness (entry : Option CachedJwks)
  | cooldown (entryIsFresh : Bool)
  | starting
  | fetching
  | storing (fetched : CachedJwks)
  | finished (result : Except AuthnError Jwk)
  | dropped

structure KeyCall where
  issuer : String
  kid : String
  phase : KeyPhase

inductive JwksEvent where
  | lookedUp (call : Nat) (issuer : String) (entry : Option CachedJwks)
  | clockRead (call : Nat) (now : Int)
  | fetchStarted (call : Nat) (issuer : String) (now : Int)
  | fetched (call : Nat) (issuer : String) (entry : CachedJwks)
deriving DecidableEq

/-- The cache, the locks with the instants they guard, the clock, and the log
of what the calls did. -/
structure JwksShared where
  cache : String → Option CachedJwks
  holder : String → Option Nat
  lastRefetch : String → Option Int
  clock : Int
  log : List JwksEvent

/-- What a call does not decide itself: the clock, the failures of the cache,
the answer of the identity provider, and whether its caller goes away. -/
inductive KeyInput where
  | goOn (now : Int)
  | cacheFails
  | fetchFails (error : AuthnError)
  | fetches (keys : List Jwk) (jwksUri : String) (now : Int)
  | drop

namespace JwksShared

def note (shared : JwksShared) (event : JwksEvent) : JwksShared :=
  { shared with log := shared.log ++ [event] }

def read (shared : JwksShared) (call : Nat) (now : Int) : JwksShared :=
  { shared.note (.clockRead call now) with clock := now }

def acquire (shared : JwksShared) (call : Nat) (issuer : String) : JwksShared :=
  { shared with
    holder := Function.update shared.holder issuer (some call) }

/-- The guard of the call goes out of scope, if it has one. -/
def release (shared : JwksShared) (call : Nat) (issuer : String) : JwksShared :=
  if shared.holder issuer = some call then
    { shared with holder := Function.update shared.holder issuer none }
  else
    shared

def begin (shared : JwksShared) (call : Nat) (issuer : String) (now : Int) :
    JwksShared :=
  { (shared.read call now).note (.fetchStarted call issuer now) with
    lastRefetch := Function.update shared.lastRefetch issuer (some now) }

def put (shared : JwksShared) (issuer : String) (entry : CachedJwks) :
    JwksShared :=
  { shared with cache := Function.update shared.cache issuer (some entry) }

end JwksShared

namespace KeyCall

def at_ (call : KeyCall) (phase : KeyPhase) : KeyCall := { call with phase }

/-- The call returns, and its guard is released. -/
def finish (call : KeyCall) (id : Nat) (shared : JwksShared)
    (result : Except AuthnError Jwk) : JwksShared × KeyCall :=
  (shared.release id call.issuer, call.at_ (.finished result))

variable (provider : JwksProvider) (id : Nat) (shared : JwksShared)
  (call : KeyCall)

/-- A cache entry is checked against the clock, which is read only where there
is an entry. -/
def checked (entry : Option CachedJwks) (now : Int) (missed : KeyPhase) :
    Option (JwksShared × KeyCall) :=
  match entry with
  | none => some (shared, call.at_ missed)
  | some entry =>
      if shared.clock ≤ now then
        match provider.hit entry call.kid now with
        | some jwk => some (call.finish id (shared.read id now) (.ok jwk))
        | none => some (shared.read id now, call.at_ missed)
      else
        none

/-- Under the cooldown a fresh entry without the key means an unknown key. -/
def afterCooldown (entryIsFresh : Bool) (now : Int) :
    Option (JwksShared × KeyCall) :=
  match shared.lastRefetch call.issuer with
  | none => some (shared, call.at_ .starting)
  | some attemptedAt =>
      if shared.clock ≤ now then
        if now - attemptedAt < provider.cooldown then
          some (call.finish id (shared.read id now)
            (.error (if entryIsFresh then .invalidToken .unknownKid
              else .unavailable)))
        else
          some (shared.read id now, call.at_ .starting)
      else
        none

/-- One access of `key_for`. -/
def step (input : KeyInput) : Option (JwksShared × KeyCall) :=
  match call.phase, input with
  | .finished _, _ => none
  | .dropped, _ => none
  | _, .drop => some (shared.release id call.issuer, call.at_ .dropped)
  | .lookup, .goOn _ =>
      let entry := shared.cache call.issuer
      some (shared.note (.lookedUp id call.issuer entry),
        call.at_ (.checkHit entry))
  | .lookup, .cacheFails => some (call.finish id shared (.error .unavailable))
  | .checkHit entry, .goOn now =>
      call.checked provider id shared entry now .waiting
  | .waiting, .goOn _ =>
      match shared.holder call.issuer with
      | some _ => none
      | none => some (shared.acquire id call.issuer, call.at_ .relookup)
  | .relookup, .goOn _ =>
      let entry := shared.cache call.issuer
      some (shared.note (.lookedUp id call.issuer entry),
        call.at_ (.recheckHit entry))
  | .relookup, .cacheFails =>
      some (call.finish id shared (.error .unavailable))
  | .recheckHit entry, .goOn now =>
      call.checked provider id shared entry now (.freshness entry)
  | .freshness none, .goOn _ => some (shared, call.at_ (.cooldown false))
  | .freshness (some entry), .goOn now =>
      if shared.clock ≤ now then
        some (shared.read id now,
          call.at_ (.cooldown (provider.isFresh entry now)))
      else
        none
  | .cooldown entryIsFresh, .goOn now =>
      call.afterCooldown provider id shared entryIsFresh now
  | .starting, .goOn now =>
      if shared.clock ≤ now then
        some (shared.begin id call.issuer now, call.at_ .fetching)
      else
        none
  | .fetching, .fetchFails error => some (call.finish id shared (.error error))
  | .fetching, .fetches keys jwksUri now =>
      if shared.clock ≤ now then
        let fetched : CachedJwks := ⟨keys, jwksUri, now⟩
        some ((shared.read id now).note (.fetched id call.issuer fetched),
          call.at_ (.storing fetched))
      else
        none
  | .storing fetched, .goOn _ =>
      some (call.finish id (shared.put call.issuer fetched)
        (match findKid fetched.keys call.kid with
          | some jwk => .ok jwk
          | none => .error (.invalidToken .unknownKid)))
  | .storing _, .cacheFails =>
      some (call.finish id shared (.error .unavailable))
  | _, _ => none

end KeyCall

/-- The calls of `key_for` on one provider; outside of it the backend of the
cache may lose or replace an entry. -/
def JwksProvider.keyFor (provider : JwksProvider) :
    Program JwksShared KeyCall KeyInput (String × Option CachedJwks) where
  starts call := match call.phase with
    | .lookup => true
    | _ => false
  step id shared call input := call.step provider id shared input
  outside shared change :=
    some { shared with
      cache := Function.update shared.cache change.1 change.2 }

def JwksShared.initial (cache : String → Option CachedJwks) (clock : Int) :
    JwksShared :=
  ⟨cache, fun _ => none, fun _ => none, clock, []⟩

/-- The instants at which the fetches of an issuer started. -/
def fetchStarts (issuer : String) (log : List JwksEvent) : List Int :=
  log.filterMap fun event =>
    match event with
    | .fetchStarted _ started now => if started = issuer then some now else none
    | _ => none

/-- The guarded instant of an issuer is that of its last fetch, and the fetches
are a cooldown apart. -/
structure Spaced (provider : JwksProvider) (shared : JwksShared) : Prop where
  last : ∀ issuer, shared.lastRefetch issuer =
    (fetchStarts issuer shared.log).getLast?
  apart : ∀ issuer, (fetchStarts issuer shared.log).Pairwise
    fun earlier later => earlier + provider.cooldown ≤ later
  past : ∀ issuer, ∀ started ∈ fetchStarts issuer shared.log,
    started ≤ shared.clock

/-- The key comes from an entry that the call looked up and found younger than
the time to live, or from the one it fetched. -/
def Justified (provider : JwksProvider) (id : Nat) (call : KeyCall)
    (log : List JwksEvent) (jwk : Jwk) : Prop :=
  ∃ entry, findKid entry.keys call.kid = some jwk ∧
    ((.lookedUp id call.issuer (some entry) ∈ log ∧
        ∃ now, .clockRead id now ∈ log ∧
          now - entry.fetchedAt < provider.ttl) ∨
      .fetched id call.issuer entry ∈ log)

/-- The call holds the lock of its issuer. -/
def KeyPhase.locked : KeyPhase → Bool
  | .relookup => true
  | .recheckHit _ => true
  | .freshness _ => true
  | .cooldown _ => true
  | .starting => true
  | .fetching => true
  | .storing _ => true
  | _ => false

/-- What a call knows at its next access. -/
def Knows (provider : JwksProvider) (id : Nat) (shared : JwksShared)
    (call : KeyCall) : Prop :=
  match call.phase with
  | .checkHit (some entry) =>
      .lookedUp id call.issuer (some entry) ∈ shared.log
  | .recheckHit (some entry) =>
      .lookedUp id call.issuer (some entry) ∈ shared.log
  | .starting => ∀ last ∈ shared.lastRefetch call.issuer,
      last + provider.cooldown ≤ shared.clock
  | .storing fetched => .fetched id call.issuer fetched ∈ shared.log
  | .finished (.ok jwk) => Justified provider id call shared.log jwk
  | _ => True

structure Asserts (provider : JwksProvider) (id : Nat) (shared : JwksShared)
    (call : KeyCall) : Prop where
  locked : call.phase.locked = true → shared.holder call.issuer = some id
  knows : Knows provider id shared call

/-- What the steps of a call leave to the others. -/
structure Grows (id : Nat) (issuer : String) (before after : JwksShared) :
    Prop where
  clock : before.clock ≤ after.clock
  log : before.log <+: after.log
  holder : ∀ other, other ≠ id → ∀ name, before.holder name = some other →
    after.holder name = some other
  cache : ∀ name, name ≠ issuer → after.cache name = before.cache name
  lastRefetch : ∀ name, name ≠ issuer →
    after.lastRefetch name = before.lastRefetch name

namespace Grows

variable {id : Nat} {issuer : String} {shared middle after : JwksShared}

theorem refl (shared : JwksShared) : Grows id issuer shared shared :=
  ⟨le_refl _, List.prefix_rfl, fun _ _ _ held => held, fun _ _ => rfl,
    fun _ _ => rfl⟩

theorem trans (first : Grows id issuer shared middle)
    (second : Grows id issuer middle after) : Grows id issuer shared after where
  clock := first.clock.trans second.clock
  log := first.log.trans second.log
  holder other distinct name held :=
    second.holder other distinct name (first.holder other distinct name held)
  cache name distinct :=
    (second.cache name distinct).trans (first.cache name distinct)
  lastRefetch name distinct :=
    (second.lastRefetch name distinct).trans (first.lastRefetch name distinct)

theorem note (event : JwksEvent) :
    Grows id issuer shared (shared.note event) :=
  ⟨le_refl _, List.prefix_append _ _, fun _ _ _ held => held, fun _ _ => rfl,
    fun _ _ => rfl⟩

theorem read {now : Int} (later : shared.clock ≤ now) :
    Grows id issuer shared (shared.read id now) :=
  ⟨later, List.prefix_append _ _, fun _ _ _ held => held, fun _ _ => rfl,
    fun _ _ => rfl⟩

theorem acquire (free : shared.holder issuer = none) :
    Grows id issuer shared (shared.acquire id issuer) := by
  refine ⟨le_refl _, List.prefix_rfl, ?_, fun _ _ => rfl, fun _ _ => rfl⟩
  intro other distinct name held
  have elsewhere : name ≠ issuer := by
    rintro rfl
    rw [free] at held
    cases held
  simp [JwksShared.acquire, elsewhere, held]

theorem release : Grows id issuer shared (shared.release id issuer) := by
  unfold JwksShared.release
  split
  case isTrue mine =>
    refine ⟨le_refl _, List.prefix_rfl, ?_, fun _ _ => rfl, fun _ _ => rfl⟩
    intro other distinct name held
    have elsewhere : name ≠ issuer := by
      rintro rfl
      rw [mine] at held
      cases held
      exact distinct rfl
    simp [elsewhere, held]
  case isFalse => exact refl shared

theorem begin {now : Int} (later : shared.clock ≤ now) :
    Grows id issuer shared (shared.begin id issuer now) := by
  refine ⟨later, ?_, fun _ _ _ held => held, fun _ _ => rfl, ?_⟩
  · simp [JwksShared.begin, JwksShared.read, JwksShared.note]
  · intro name distinct
    simp [JwksShared.begin, distinct]

theorem put (entry : CachedJwks) :
    Grows id issuer shared (shared.put issuer entry) := by
  refine ⟨le_refl _, List.prefix_rfl, fun _ _ _ held => held, ?_,
    fun _ _ => rfl⟩
  intro name distinct
  simp [JwksShared.put, distinct]

end Grows

namespace Spaced

variable {provider : JwksProvider} {id : Nat} {issuer : String}
  {shared after : JwksShared}

theorem quiet (spaced : Spaced provider shared)
    (sameStarts : ∀ issuer, fetchStarts issuer after.log =
      fetchStarts issuer shared.log)
    (sameLast : after.lastRefetch = shared.lastRefetch)
    (later : shared.clock ≤ after.clock) : Spaced provider after where
  last issuer := by
    rw [sameLast, sameStarts]
    exact spaced.last issuer
  apart issuer := by
    rw [sameStarts]
    exact spaced.apart issuer
  past issuer started member := by
    rw [sameStarts] at member
    exact (spaced.past issuer started member).trans later

theorem note {event : JwksEvent} (spaced : Spaced provider shared)
    (noStart : ∀ issuer, fetchStarts issuer [event] = []) :
    Spaced provider (shared.note event) := by
  apply spaced.quiet
  · intro issuer
    change fetchStarts issuer (shared.log ++ [event]) = _
    unfold fetchStarts
    rw [List.filterMap_append]
    exact (congrArg _ (noStart issuer)).trans (List.append_nil _)
  · rfl
  · exact le_refl _

theorem read {now : Int} (spaced : Spaced provider shared)
    (later : shared.clock ≤ now) : Spaced provider (shared.read id now) := by
  have noted : Spaced provider (shared.note (.clockRead id now)) :=
    spaced.note fun _ => rfl
  exact noted.quiet (fun _ => rfl) rfl later

theorem acquire (spaced : Spaced provider shared) :
    Spaced provider (shared.acquire id issuer) :=
  spaced.quiet (fun _ => rfl) rfl (le_refl _)

theorem release (spaced : Spaced provider shared) :
    Spaced provider (shared.release id issuer) := by
  unfold JwksShared.release
  split
  · exact spaced.quiet (fun _ => rfl) rfl (le_refl _)
  · exact spaced

theorem put (spaced : Spaced provider shared) (entry : CachedJwks) :
    Spaced provider (shared.put issuer entry) :=
  spaced.quiet (fun _ => rfl) rfl (le_refl _)

theorem fetchStarts_begin (name : String) (now : Int) :
    fetchStarts name (shared.begin id issuer now).log =
      fetchStarts name shared.log ++ if issuer = name then [now] else [] := by
  unfold fetchStarts JwksShared.begin JwksShared.read JwksShared.note
  rw [List.filterMap_append, List.filterMap_append, List.append_assoc]
  by_cases same : issuer = name
  · simp [same]
  · simp [same]

/-- A fetch after the cooldown keeps the distance to all fetches before it. -/
theorem begin {now : Int} (spaced : Spaced provider shared)
    (ready : ∀ last ∈ shared.lastRefetch issuer,
      last + provider.cooldown ≤ shared.clock)
    (later : shared.clock ≤ now) :
    Spaced provider (shared.begin id issuer now) where
  last name := by
    rw [fetchStarts_begin]
    by_cases same : issuer = name
    · subst same
      simp [JwksShared.begin]
    · rw [if_neg same, List.append_nil, ← spaced.last name]
      simp [JwksShared.begin, Ne.symm same]
  apart name := by
    rw [fetchStarts_begin]
    by_cases same : issuer = name
    · subst same
      rw [if_pos rfl]
      apply List.pairwise_append.mpr
      refine ⟨spaced.apart issuer, List.pairwise_singleton _ _, ?_⟩
      intro earlier member started isNow
      rw [List.mem_singleton] at isNow
      subst isNow
      -- The last fetch is the one the guard keeps; all others are before it.
      rcases List.eq_nil_or_concat (fetchStarts issuer shared.log) with
        none | ⟨others, last, isLast⟩
      · rw [none] at member
        cases member
      · have guarded : shared.lastRefetch issuer = some last := by
          rw [spaced.last, isLast]
          simp
        have waited := ready last guarded
        have apart := spaced.apart issuer
        rw [isLast] at apart member
        simp only [List.concat_eq_append, List.mem_append,
          List.mem_singleton] at member
        rcases member with old | newest
        · rw [List.concat_eq_append, List.pairwise_append] at apart
          have before := apart.2.2 earlier old last List.mem_cons_self
          have past : last ≤ shared.clock := by
            apply spaced.past issuer
            rw [isLast]
            simp
          exact before.trans (past.trans later)
        · rw [newest]
          exact waited.trans later
    · rw [if_neg same, List.append_nil]
      exact spaced.apart name
  past name started member := by
    rw [fetchStarts_begin] at member
    change started ≤ now
    rcases List.mem_append.mp member with old | new
    · exact (spaced.past name started old).trans later
    · split at new
      · exact (List.mem_singleton.mp new).le
      · cases new

end Spaced

/-- What a step of a call keeps. -/
structure Kept (provider : JwksProvider) (id : Nat) (shared : JwksShared)
    (call : KeyCall) (after : JwksShared × KeyCall) : Prop where
  issuer : after.2.issuer = call.issuer
  grows : Grows id call.issuer shared after.1
  spaced : Spaced provider after.1
  asserts : Asserts provider id after.1 after.2
  lastRefetch : call.phase = .starting ∨
    after.1.lastRefetch = shared.lastRefetch

namespace Kept

variable {provider : JwksProvider} {id : Nat} {shared after : JwksShared}
  {call : KeyCall}

/-- Steps that go on with a lock they have, or without one. -/
theorem goOn {phase : KeyPhase}
    (grows : Grows id call.issuer shared after)
    (spaced : Spaced provider after)
    (locked : phase.locked = true → after.holder call.issuer = some id)
    (knows : Knows provider id after (call.at_ phase))
    (lastRefetch : call.phase = .starting ∨
      after.lastRefetch = shared.lastRefetch) :
    Kept provider id shared call (after, call.at_ phase) :=
  ⟨rfl, grows, spaced, ⟨locked, knows⟩, lastRefetch⟩

theorem release_lastRefetch {issuer : String} :
    (after.release id issuer).lastRefetch = after.lastRefetch := by
  unfold JwksShared.release
  split
  · rfl
  · rfl

theorem release_log {issuer : String} :
    (after.release id issuer).log = after.log := by
  unfold JwksShared.release
  split
  · rfl
  · rfl

/-- Steps that end the call. -/
theorem finish {result : Except AuthnError Jwk}
    (grows : Grows id call.issuer shared after)
    (spaced : Spaced provider after)
    (sameLast : after.lastRefetch = shared.lastRefetch)
    (justified : ∀ jwk, result = .ok jwk →
      Justified provider id call after.log jwk) :
    Kept provider id shared call (call.finish id after result) := by
  refine ⟨rfl, grows.trans .release, spaced.release, ⟨nofun, ?_⟩,
    .inr (release_lastRefetch.trans sameLast)⟩
  cases result with
  | error error => trivial
  | ok jwk =>
      have found := justified jwk rfl
      have sameLog : (after.release id call.issuer).log = after.log :=
        release_log
      rw [← sameLog] at found
      exact found

theorem refusal {error : AuthnError}
    (grows : Grows id call.issuer shared after)
    (spaced : Spaced provider after)
    (sameLast : after.lastRefetch = shared.lastRefetch) :
    Kept provider id shared call (call.finish id after (.error error)) := by
  apply finish grows spaced sameLast
  intro jwk impossible
  cases impossible

theorem checked {entry : Option CachedJwks} {now : Int} {missed : KeyPhase}
    {result : JwksShared × KeyCall}
    (spaced : Spaced provider shared)
    (stepped : call.checked provider id shared entry now missed =
      some result)
    (looked : ∀ found, entry = some found →
      .lookedUp id call.issuer (some found) ∈ shared.log)
    (locked : missed.locked = true → shared.holder call.issuer = some id)
    (ignorant : ∀ after, Knows provider id after (call.at_ missed)) :
    Kept provider id shared call result := by
  unfold KeyCall.checked at stepped
  split at stepped
  case h_1 =>
    cases stepped
    exact goOn (.refl shared) spaced locked (ignorant _) (.inr rfl)
  case h_2 found =>
    split at stepped
    case isTrue later =>
      split at stepped
      case h_1 jwk hit =>
        cases stepped
        refine finish (.read later) (spaced.read later) rfl ?_
        rintro _ ⟨⟩
        unfold JwksProvider.hit at hit
        split at hit
        case isTrue fresh =>
          refine ⟨found, hit, .inl ⟨?_, now, ?_, of_decide_eq_true fresh⟩⟩
          · exact List.mem_append_left _ (looked found rfl)
          · exact List.mem_append_right _ (List.mem_singleton.mpr rfl)
        case isFalse => cases hit
      case h_2 =>
        cases stepped
        exact goOn (.read later) (spaced.read later) locked (ignorant _)
          (.inr rfl)
    case isFalse => cases stepped

theorem afterCooldown {entryIsFresh : Bool} {now : Int}
    {result : JwksShared × KeyCall} (spaced : Spaced provider shared)
    (locked : shared.holder call.issuer = some id)
    (stepped : call.afterCooldown provider id shared entryIsFresh now =
      some result) :
    Kept provider id shared call result := by
  unfold KeyCall.afterCooldown at stepped
  split at stepped
  case h_1 never =>
    cases stepped
    refine goOn (.refl shared) spaced (fun _ => locked) ?_ (.inr rfl)
    intro last isLast
    rw [KeyCall.at_, never] at isLast
    cases isLast
  case h_2 attemptedAt attempted =>
    split at stepped
    case isTrue later =>
      split at stepped
      case isTrue =>
        cases stepped
        exact refusal (.read later) (spaced.read later) rfl
      case isFalse waited =>
        cases stepped
        refine goOn (.read later) (spaced.read later) (fun _ => locked) ?_
          (.inr rfl)
        intro last isLast
        have same : attemptedAt = last :=
          Option.some.inj (attempted.symm.trans isLast)
        subst same
        change attemptedAt + provider.cooldown ≤ now
        omega
    case isFalse => cases stepped

theorem lookedUp {phase : KeyPhase} (spaced : Spaced provider shared)
    (locked : phase.locked = true → shared.holder call.issuer = some id)
    (knows : Knows provider id (shared.note
      (.lookedUp id call.issuer (shared.cache call.issuer)))
      (call.at_ phase)) :
    Kept provider id shared call
      (shared.note (.lookedUp id call.issuer (shared.cache call.issuer)),
        call.at_ phase) :=
  goOn (.note _) (spaced.note fun _ => rfl) locked knows (.inr rfl)

end Kept

/-- A step keeps the spacing of the fetches and what its call asserts. -/
theorem KeyCall.step_kept {provider : JwksProvider} {id : Nat}
    {shared : JwksShared} {call : KeyCall} {input : KeyInput}
    {result : JwksShared × KeyCall} (spaced : Spaced provider shared)
    (asserts : Asserts provider id shared call)
    (stepped : call.step provider id shared input = some result) :
    Kept provider id shared call result := by
  obtain ⟨locked, knows⟩ := asserts
  unfold KeyCall.step at stepped
  unfold Knows at knows
  split at stepped
  case h_1 => cases stepped
  case h_2 => cases stepped
  case h_3 =>
    cases stepped
    exact .goOn .release spaced.release nofun trivial
      (.inr Kept.release_lastRefetch)
  case h_4 =>
    cases stepped
    refine .lookedUp spaced nofun ?_
    cases found : shared.cache call.issuer with
    | none => trivial
    | some entry => exact List.mem_append_right _ (List.mem_singleton.mpr rfl)
  case h_5 =>
    cases stepped
    exact .refusal (.refl shared) spaced rfl
  case h_6 entry now phase =>
    rw [phase] at knows
    refine .checked spaced stepped ?_ nofun fun _ => trivial
    rintro found rfl
    exact knows
  case h_7 =>
    split at stepped
    case h_1 => cases stepped
    case h_2 free =>
      cases stepped
      refine .goOn (.acquire free) spaced.acquire ?_ trivial (.inr rfl)
      intro _
      simp [JwksShared.acquire]
  case h_8 phase =>
    rw [phase] at locked
    cases stepped
    refine .lookedUp spaced (fun _ => locked rfl) ?_
    cases found : shared.cache call.issuer with
    | none => trivial
    | some entry => exact List.mem_append_right _ (List.mem_singleton.mpr rfl)
  case h_9 =>
    cases stepped
    exact .refusal (.refl shared) spaced rfl
  case h_10 entry now phase =>
    rw [phase] at knows locked
    refine .checked spaced stepped ?_ (fun _ => locked rfl) fun _ => trivial
    rintro found rfl
    exact knows
  case h_11 phase =>
    rw [phase] at locked
    cases stepped
    exact .goOn (.refl shared) spaced (fun _ => locked rfl) trivial (.inr rfl)
  case h_12 phase =>
    rw [phase] at locked
    split at stepped
    case isTrue later =>
      cases stepped
      exact .goOn (.read later) (spaced.read later) (fun _ => locked rfl)
        trivial (.inr rfl)
    case isFalse => cases stepped
  case h_13 phase =>
    rw [phase] at locked
    exact .afterCooldown spaced (locked rfl) stepped
  case h_14 phase =>
    rw [phase] at knows locked
    split at stepped
    case isTrue later =>
      cases stepped
      exact .goOn (.begin later) (spaced.begin knows later)
        (fun _ => locked rfl) trivial (.inl phase)
    case isFalse => cases stepped
  case h_15 =>
    cases stepped
    exact .refusal (.refl shared) spaced rfl
  case h_16 phase =>
    rw [phase] at locked
    split at stepped
    case isTrue later =>
      cases stepped
      refine .goOn ((Grows.read later).trans (.note _))
        ((spaced.read later).note fun _ => rfl) (fun _ => locked rfl) ?_
        (.inr rfl)
      exact List.mem_append_right _ (List.mem_singleton.mpr rfl)
    case isFalse => cases stepped
  case h_17 fetched _ phase =>
    rw [phase] at knows
    cases stepped
    refine .finish (.put fetched) (spaced.put fetched) rfl ?_
    intro jwk found
    split at found
    case h_1 key isKey =>
      cases found
      exact ⟨fetched, isKey, .inr knows⟩
    case h_2 => cases found
  case h_18 =>
    cases stepped
    exact .refusal (.refl shared) spaced rfl
  case h_19 => cases stepped

/-- A longer log and a later clock leave a call what it knows; the guarded
instant cannot change under the lock of the call. -/
theorem Knows.stable {provider : JwksProvider} {id : Nat}
    {shared after : JwksShared} {call : KeyCall}
    (knows : Knows provider id shared call)
    (log : shared.log <+: after.log) (clock : shared.clock ≤ after.clock)
    (lastRefetch : call.phase = .starting →
      after.lastRefetch call.issuer = shared.lastRefetch call.issuer) :
    Knows provider id after call := by
  cases phase : call.phase with
  | checkHit entry =>
      cases entry with
      | none => simp only [Knows, phase]
      | some entry =>
          simp only [Knows, phase] at knows ⊢
          exact log.subset knows
  | recheckHit entry =>
      cases entry with
      | none => simp only [Knows, phase]
      | some entry =>
          simp only [Knows, phase] at knows ⊢
          exact log.subset knows
  | starting =>
      simp only [Knows, phase] at knows ⊢
      rw [lastRefetch phase]
      intro last isLast
      exact (knows last isLast).trans clock
  | storing fetched =>
      simp only [Knows, phase] at knows ⊢
      exact log.subset knows
  | finished result =>
      cases result with
      | error error => simp only [Knows, phase]
      | ok jwk =>
          simp only [Knows, phase] at knows ⊢
          obtain ⟨entry, found, source⟩ := knows
          refine ⟨entry, found, ?_⟩
          rcases source with ⟨looked, now, read, fresh⟩ | fetched
          · exact .inl ⟨log.subset looked, now, log.subset read, fresh⟩
          · exact .inr (log.subset fetched)
  | _ => simp only [Knows, phase]

theorem JwksProvider.outline (provider : JwksProvider) :
    provider.keyFor.Outline (Spaced provider) (Asserts provider) where
  spawned id shared initial _ starts := by
    change (match initial.phase with | .lookup => true | _ => false) = true
      at starts
    split at starts
    case h_1 phase => exact ⟨by simp [phase, KeyPhase.locked], by
      unfold Knows
      rw [phase]
      trivial⟩
    case h_2 => cases starts
  own id shared call input shared' call' spaced asserts stepped := by
    have kept := KeyCall.step_kept spaced asserts stepped
    exact ⟨kept.spaced, kept.asserts⟩
  others id shared call input shared' call' other held spaced asserts stepped
      distinct otherAsserts := by
    have kept := KeyCall.step_kept spaced asserts stepped
    refine ⟨?_, ?_⟩
    · intro locked
      exact kept.grows.holder other distinct _ (otherAsserts.locked locked)
    · apply otherAsserts.knows.stable kept.grows.log kept.grows.clock
      intro starting
      rcases kept.lastRefetch with mine | same
      · -- Both would hold the lock of the issuer.
        by_cases sameIssuer : held.issuer = call.issuer
        · have theirs := otherAsserts.locked (by rw [starting]; rfl)
          rw [sameIssuer, asserts.locked (by rw [mine]; rfl)] at theirs
          exact absurd (Option.some.inj theirs).symm distinct
        · exact kept.grows.lastRefetch _ sameIssuer
      · rw [same]
  outside shared change shared' spaced changed := by
    cases changed
    refine ⟨spaced.quiet (fun _ => rfl) rfl (le_refl _), ?_⟩
    intro id call asserts
    exact ⟨asserts.locked, asserts.knows.stable List.prefix_rfl (le_refl _)
      fun _ => rfl⟩

theorem KeyCall.fetchFails_cache {provider : JwksProvider} {id : Nat}
    {shared : JwksShared} {call : KeyCall} {error : AuthnError}
    {result : JwksShared × KeyCall}
    (stepped : call.step provider id shared (.fetchFails error) =
      some result) :
    result.1.cache = shared.cache := by
  unfold KeyCall.step at stepped
  split at stepped
  case h_15 =>
    cases stepped
    unfold KeyCall.finish JwksShared.release
    dsimp only
    split
    · rfl
    · rfl
  all_goals contradiction

theorem Spaced.initial (provider : JwksProvider)
    (cache : String → Option CachedJwks) (clock : Int) :
    Spaced provider (.initial cache clock) where
  last _ := rfl
  apart _ := .nil
  past _ _ member := by cases member

/-- In every interleaving: at most one fetch of an issuer is in flight, the
starts of its fetches are a cooldown apart, every key returned is from a set
that was young at a clock value the call read or that the call fetched itself, a
failed fetch leaves the cache as it was, and a call changes neither the cache
entry nor the cooldown of another issuer. -/
theorem JwksProvider.key_lookups (provider : JwksProvider)
    (cache : String → Option CachedJwks) (clock : Int)
    (schedule : List (Move KeyCall KeyInput (String × Option CachedJwks)))
    (configuration : Configuration JwksShared KeyCall)
    (run : runFrom provider.keyFor.move
      (.start (.initial cache clock)) schedule = some configuration) :
    (∀ first second left right,
        configuration.process first = some left →
        configuration.process second = some right →
        left.phase = .fetching → right.phase = .fetching →
        left.issuer = right.issuer → first = second) ∧
      (∀ issuer, (fetchStarts issuer configuration.shared.log).Pairwise
        fun earlier later => earlier + provider.cooldown ≤ later) ∧
      (∀ id call jwk, configuration.process id = some call →
        call.phase = .finished (.ok jwk) →
        Justified provider id call configuration.shared.log jwk) ∧
      (∀ id error next, provider.keyFor.move configuration
          (.run id (.fetchFails error)) = some next →
        next.shared.cache = configuration.shared.cache) ∧
      (∀ id call input next issuer, configuration.process id = some call →
        provider.keyFor.move configuration (.run id input) = some next →
        issuer ≠ call.issuer →
        next.shared.cache issuer = configuration.shared.cache issuer ∧
        next.shared.lastRefetch issuer =
          configuration.shared.lastRefetch issuer) := by
  have holds := provider.outline.run
    (Program.Holds.start (Spaced.initial provider cache clock)) run
  refine ⟨?_, holds.shared.apart, ?_, ?_, ?_⟩
  · intro first second left right isFirst isSecond fetches fetchesToo same
    have mine := (holds.process first left isFirst).locked (by rw [fetches]; rfl)
    have theirs := (holds.process second right isSecond).locked
      (by rw [fetchesToo]; rfl)
    rw [same, theirs] at mine
    exact (Option.some.inj mine).symm
  · intro id call jwk running finished
    have knows := (holds.process id call running).knows
    unfold Knows at knows
    rw [finished] at knows
    exact knows
  · intro id error next moved
    cases Program.move_cases moved with
    | run running stepped => exact KeyCall.fetchFails_cache stepped
  · intro id call input next issuer running moved elsewhere
    cases Program.move_cases moved with
    | run isRunning stepped =>
        cases running.symm.trans isRunning
        have grows := (KeyCall.step_kept holds.shared
          (holds.process id call running) stepped).grows
        exact ⟨grows.cache issuer elsewhere, grows.lastRefetch issuer elsewhere⟩

/-- Two calls of one issuer find the cache empty.  The first one fetches; the
second one waits for it, and finds its key in the cache. -/
def sampleSchedule :
    List (Move KeyCall KeyInput (String × Option CachedJwks)) :=
  [Move.spawn 0 ⟨"issuer", "kid", .lookup⟩, .spawn 1 ⟨"issuer", "kid", .lookup⟩,
    .run 0 (.goOn 0), .run 1 (.goOn 0), .run 0 (.goOn 0), .run 1 (.goOn 0)] ++
    List.replicate 5 (Move.run 0 (.goOn 0)) ++
    [Move.run 0 (.goOn 5), .run 0 (.fetches [⟨some "kid", "key"⟩] "uri" 6),
      .run 0 (.goOn 7), .run 1 (.goOn 8), .run 1 (.goOn 8), .run 1 (.goOn 8)]

theorem JwksProvider.key_lookups_sample : ∃ configuration first second,
    runFrom (JwksProvider.mk 3600 30).keyFor.move
      (.start (.initial (fun _ => none) 0)) sampleSchedule =
        some configuration ∧
    configuration.process 0 = some first ∧
    configuration.process 1 = some second ∧
    first.phase = .finished (.ok ⟨some "kid", "key"⟩) ∧
    second.phase = .finished (.ok ⟨some "kid", "key"⟩) ∧
    fetchStarts "issuer" configuration.shared.log = [5] ∧
    Justified ⟨3600, 30⟩ 1 second configuration.shared.log
      ⟨some "kid", "key"⟩ := by
  refine ⟨_, _, _, rfl, rfl, rfl, rfl, rfl, rfl, ?_⟩
  exact (key_lookups ⟨3600, 30⟩ (fun _ => none) 0 sampleSchedule _ rfl).2.2.1
    1 _ _ rfl rfl

end Paigasus.Oidc
