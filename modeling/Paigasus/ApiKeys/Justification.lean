import Paigasus.ApiKeys.Resolve
import Paigasus.Foundation.EventLog

/-!
# Every acceptance of an API key is justified

An accepted resolve rests on one key row that was read as active and on its
service account, then read as active by the same resolve.  That resolve is the
accepting one, or its cache entry was put less than a lifetime before it was
hit.  Reads that come after the commit of a revoke or an archive never lead to
an acceptance or to a cache entry.
-/

namespace Paigasus.ApiKeys

open Foundation Core

variable {log : List Event}

/-- At position `i` the reader read the key row as active, and the key had not
been revoked before. -/
structure KeyReadAt (log : List Event) (reader i : Nat) (row : KeyRow) :
    Prop where
  event : log[i]? = some (.keyRead reader row)
  active : row.key.status = .active
  beforeRevoke : ∀ r, log[r]? = some (.revoked row.key.id) → i < r

/-- The reader went on to read the key's service account as active at `j`, and
the account had not been archived before. -/
structure Validated (log : List Event) (reader i j : Nat) (row : KeyRow)
    (principal : Principal) : Prop where
  keyRead : KeyReadAt log reader i row
  ordered : i < j
  event : log[j]? = some (.principalRead reader principal)
  owner : principal.id.uuid = row.key.serviceAccountId.uuid
  kind : principal.kind = .serviceAccount
  active : principal.status = .active
  beforeArchive : ∀ r,
    log[r]? = some (.archived principal.id.uuid) → j < r

/-- An entry put at `p` for the reader's validation was not evicted before the
hit at `g`, less than a lifetime later. -/
structure ServedFromCache (log : List Event) (ttl reader call : Nat)
    (keyId : Uuid) (j p g : Nat) : Prop where
  afterReads : j < p
  ordered : p < g
  times : ∃ putAt getAt, log[p]? = some (.put reader keyId putAt) ∧
    log[g]? = some (.hit call keyId getAt) ∧ putAt ≤ getAt ∧
    getAt < putAt + ttl
  notEvicted : ∀ e, log[e]? = some (.evicted keyId) → e < p ∨ g < e

/-- The justification of an acceptance at position `n`. -/
def Justified (deployment : Deployment) (log : List Event) (n call : Nat)
    (parsed : ParsedToken) (clock : Timestamp)
    (principal : AuthnPrincipal) : Prop :=
  ∃ reader i j row account,
    Validated log reader i j row account ∧ j < n ∧
    row.key.id = parsed.keyId ∧
    deployment.verify parsed.secret row.keyHash = true ∧
    expired row.key.expiresAt clock = false ∧
    principal = answer parsed row account ∧
    (reader = call ∨ ∃ p g, g < n ∧
      ServedFromCache log deployment.ttl reader call parsed.keyId j p g)

theorem KeyReadAt.append {reader i : Nat} {row : KeyRow} {extra : Event}
    (read : KeyReadAt log reader i row) :
    KeyReadAt (log ++ [extra]) reader i row where
  event := at_append_of_at read.event
  active := read.active
  beforeRevoke := by
    intro r revoked
    rcases at_append.mp revoked with old | ⟨isLast, _⟩
    · exact read.beforeRevoke r old
    · rw [isLast]
      exact at_lt read.event

theorem Validated.append {reader i j : Nat} {row : KeyRow}
    {principal : Principal} {extra : Event}
    (valid : Validated log reader i j row principal) :
    Validated (log ++ [extra]) reader i j row principal where
  keyRead := valid.keyRead.append
  ordered := valid.ordered
  event := at_append_of_at valid.event
  owner := valid.owner
  kind := valid.kind
  active := valid.active
  beforeArchive := by
    intro r archived
    rcases at_append.mp archived with old | ⟨isLast, _⟩
    · exact valid.beforeArchive r old
    · rw [isLast]
      exact at_lt valid.event

theorem ServedFromCache.append {ttl reader call : Nat} {keyId : Uuid}
    {j p g : Nat} {extra : Event}
    (served : ServedFromCache log ttl reader call keyId j p g) :
    ServedFromCache (log ++ [extra]) ttl reader call keyId j p g := by
  obtain ⟨putAt, getAt, put, hit, ordered, inTime⟩ := served.times
  constructor
  · exact served.afterReads
  · exact served.ordered
  · exact ⟨putAt, getAt, at_append_of_at put, at_append_of_at hit, ordered,
      inTime⟩
  · intro e evicted
    rcases at_append.mp evicted with old | ⟨isLast, _⟩
    · exact served.notEvicted e old
    · rw [isLast]
      exact .inr (at_lt hit)

theorem Justified.append {deployment : Deployment} {n call : Nat}
    {parsed : ParsedToken} {clock : Timestamp} {principal : AuthnPrincipal}
    {extra : Event}
    (justified : Justified deployment log n call parsed clock principal) :
    Justified deployment (log ++ [extra]) n call parsed clock principal := by
  obtain ⟨reader, i, j, row, account, valid, before, sameKey, verified, live,
    isAnswer, source⟩ := justified
  refine ⟨reader, i, j, row, account, valid.append, before, sameKey, verified,
    live, isAnswer, ?_⟩
  rcases source with own | ⟨p, g, beforeAnswer, served⟩
  · exact .inl own
  · exact .inr ⟨p, g, beforeAnswer, served.append⟩

/-- What a waiting call knows. -/
def PhaseSound (deployment : Deployment) (log : List Event) (call : Nat) :
    Phase → Prop
  | .cacheHit parsed cached =>
      ∃ reader i j p g row account,
        Validated log reader i j row account ∧ row.key.id = parsed.keyId ∧
        cached = validation row account ∧
        ServedFromCache log deployment.ttl reader call parsed.keyId j p g
  | .principalRead parsed row now =>
      ∃ i, KeyReadAt log call i row ∧ row.key.id = parsed.keyId ∧
        deployment.verify parsed.secret row.keyHash = true ∧
        expired row.key.expiresAt now = false
  | .cachePut parsed row account now =>
      ∃ i j, Validated log call i j row account ∧
        row.key.id = parsed.keyId ∧
        deployment.verify parsed.secret row.keyHash = true ∧
        expired row.key.expiresAt now = false
  | .respond parsed now principal =>
      ∃ i j row account, Validated log call i j row account ∧
        row.key.id = parsed.keyId ∧
        deployment.verify parsed.secret row.keyHash = true ∧
        expired row.key.expiresAt now = false ∧
        principal = answer parsed row account
  | _ => True

/-- Where a cache entry comes from. -/
def EntrySound (deployment : Deployment) (log : List Event) (instant : Nat)
    (keyId : Uuid) (cached : CachedValidation) (expiresAt : Nat) : Prop :=
  ∃ reader i j p row account putAt,
    Validated log reader i j row account ∧ row.key.id = keyId ∧
    cached = validation row account ∧ j < p ∧
    log[p]? = some (.put reader keyId putAt) ∧ putAt ≤ instant ∧
    expiresAt = putAt + deployment.ttl ∧
    ∀ e, log[e]? = some (.evicted keyId) → e < p

theorem PhaseSound.append {deployment : Deployment} {call : Nat}
    {phase : Phase} {extra : Event}
    (sound : PhaseSound deployment log call phase) :
    PhaseSound deployment (log ++ [extra]) call phase := by
  cases phase with
  | cacheHit parsed cached =>
      obtain ⟨reader, i, j, p, g, row, account, valid, sameKey, isCached,
        served⟩ := sound
      exact ⟨reader, i, j, p, g, row, account, valid.append, sameKey, isCached,
        served.append⟩
  | principalRead parsed row now =>
      obtain ⟨i, read, facts⟩ := sound
      exact ⟨i, read.append, facts⟩
  | cachePut parsed row account now =>
      obtain ⟨i, j, valid, facts⟩ := sound
      exact ⟨i, j, valid.append, facts⟩
  | respond parsed now principal =>
      obtain ⟨i, j, row, account, valid, facts⟩ := sound
      exact ⟨i, j, row, account, valid.append, facts⟩
  | cacheGet _ => trivial
  | keyRead _ => trivial
  | listKeys _ => trivial
  | evict _ => trivial
  | done => trivial

theorem EntrySound.append {deployment : Deployment} {instant expiresAt : Nat}
    {keyId : Uuid} {cached : CachedValidation} {extra : Event}
    (notEvicted : extra ≠ .evicted keyId)
    (sound : EntrySound deployment log instant keyId cached expiresAt) :
    EntrySound deployment (log ++ [extra]) instant keyId cached expiresAt := by
  obtain ⟨reader, i, j, p, row, account, putAt, valid, sameKey, isCached,
    afterReads, put, earlier, lifetime, last⟩ := sound
  refine ⟨reader, i, j, p, row, account, putAt, valid.append, sameKey, isCached,
    afterReads, at_append_of_at put, earlier, lifetime, ?_⟩
  intro e evicted
  rcases at_append.mp evicted with old | ⟨_, isExtra⟩
  · exact last e old
  · exact absurd isExtra notEvicted

theorem EntrySound.elapse {deployment : Deployment}
    {instant later expiresAt : Nat} {keyId : Uuid} {cached : CachedValidation}
    (ordered : instant ≤ later)
    (sound : EntrySound deployment log instant keyId cached expiresAt) :
    EntrySound deployment log later keyId cached expiresAt := by
  obtain ⟨reader, i, j, p, row, account, putAt, valid, sameKey, isCached,
    afterReads, put, earlier, rest⟩ := sound
  exact ⟨reader, i, j, p, row, account, putAt, valid, sameKey, isCached,
    afterReads, put, earlier.trans ordered, rest⟩

namespace World

/-- The invariant of the whole system. -/
structure Sound (deployment : Deployment) (world : World) : Prop where
  phases : ∀ call phase, world.calls call = some phase →
    PhaseSound deployment world.log call phase
  entries : ∀ keyId cached expiresAt,
    world.cache keyId = some (cached, expiresAt) →
    EntrySound deployment world.log world.instant keyId cached expiresAt
  revokedRows : ∀ (r : Nat) keyId,
    world.log[r]? = some (.revoked keyId) →
    ∃ row, world.findKey keyId = some row ∧ row.key.status = .revoked
  archivedRows : ∀ (r : Nat) id, world.log[r]? = some (.archived id) →
    ∃ principal, world.findPrincipal id = some principal ∧
      principal.status = .disabled
  puts : ∀ (n : Nat) reader keyId instant,
    world.log[n]? = some (.put reader keyId instant) →
    ∃ i j row account, Validated world.log reader i j row account ∧ j < n ∧
      row.key.id = keyId
  acceptances : ∀ (n : Nat) call parsed clock principal,
    world.log[n]? = some (.accepted call parsed clock principal) →
    Justified deployment world.log n call parsed clock principal

theorem sound_initial (deployment : Deployment) :
    initial.Sound deployment where
  phases := by simp [initial]
  entries := by simp [initial]
  revokedRows := by simp [initial]
  archivedRows := by simp [initial]
  puts := by simp [initial]
  acceptances := by simp [initial]

/-- What has to hold before an event is recorded. -/
def EventSound (deployment : Deployment) (world : World) : Event → Prop
  | .revoked keyId =>
      ∃ row, world.findKey keyId = some row ∧ row.key.status = .revoked
  | .archived id =>
      ∃ principal, world.findPrincipal id = some principal ∧
        principal.status = .disabled
  | .put reader keyId _ =>
      ∃ i j row account, Validated world.log reader i j row account ∧
        row.key.id = keyId
  | .accepted call parsed clock principal =>
      Justified deployment world.log world.log.length call parsed clock
        principal
  | .evicted keyId => world.cache keyId = none
  | _ => True

variable {deployment : Deployment} {world next : World}

theorem Sound.moveTo {call : Nat} {phase : Phase}
    (sound : world.Sound deployment)
    (phaseSound : PhaseSound deployment world.log call phase) :
    (world.moveTo call phase).Sound deployment := by
  refine { sound with phases := ?_ }
  intro other otherPhase waiting
  by_cases same : other = call
  · subst same
    simp only [World.moveTo, Function.update_self, Option.some.injEq] at waiting
    rw [← waiting]
    exact phaseSound
  · simp only [World.moveTo, Function.update_of_ne same] at waiting
    exact sound.phases other otherPhase waiting

theorem Sound.record {extra : Event} (sound : world.Sound deployment)
    (eventSound : EventSound deployment world extra) :
    (world.record extra).Sound deployment := by
  constructor
  · intro call phase waiting
    exact (sound.phases call phase waiting).append
  · intro keyId cached expiresAt stored
    refine (sound.entries keyId cached expiresAt stored).append ?_
    intro isEvicted
    subst isEvicted
    have absent : world.cache keyId = none := eventSound
    have present : world.cache keyId = some (cached, expiresAt) := stored
    rw [absent] at present
    cases present
  · intro r keyId revoked
    rcases at_append.mp revoked with old | ⟨_, isExtra⟩
    · exact sound.revokedRows r keyId old
    · subst isExtra
      exact eventSound
  · intro r id archived
    rcases at_append.mp archived with old | ⟨_, isExtra⟩
    · exact sound.archivedRows r id old
    · subst isExtra
      exact eventSound
  · intro n reader keyId instant put
    rcases at_append.mp put with old | ⟨isLast, isExtra⟩
    · obtain ⟨i, j, row, account, valid, facts⟩ :=
        sound.puts n reader keyId instant old
      exact ⟨i, j, row, account, valid.append, facts⟩
    · subst isExtra
      obtain ⟨i, j, row, account, valid, sameKey⟩ := eventSound
      refine ⟨i, j, row, account, valid.append, ?_, sameKey⟩
      rw [isLast]
      exact at_lt valid.event
  · intro n call parsed clock principal accepted
    rcases at_append.mp accepted with old | ⟨isLast, isExtra⟩
    · exact (sound.acceptances n call parsed clock principal old).append
    · subst isExtra
      rw [isLast]
      have justified : Justified deployment world.log world.log.length call
          parsed clock principal := eventSound
      exact justified.append

theorem Sound.elapse (sound : world.Sound deployment) (duration : Nat) :
    { world with instant := world.instant + duration }.Sound deployment := by
  refine { sound with entries := ?_ }
  intro keyId cached expiresAt stored
  exact (sound.entries keyId cached expiresAt stored).elapse
    (Nat.le_add_right world.instant duration)

/-- Replaces one cache entry, or drops it. -/
theorem Sound.setEntry {keyId : Uuid}
    {entry : Option (CachedValidation × Nat)}
    (sound : world.Sound deployment)
    (entrySound : ∀ cached expiresAt, entry = some (cached, expiresAt) →
      EntrySound deployment world.log world.instant keyId cached expiresAt) :
    { world with
      cache := Function.update world.cache keyId entry }.Sound deployment := by
  refine { sound with entries := ?_ }
  intro other cached expiresAt stored
  by_cases same : other = keyId
  · subst same
    simp only [Function.update_self] at stored
    exact entrySound cached expiresAt stored
  · simp only [Function.update_of_ne same] at stored
    exact sound.entries other cached expiresAt stored

theorem Sound.dropEntry (sound : world.Sound deployment) (keyId : Uuid) :
    { world with
      cache := Function.update world.cache keyId none }.Sound deployment :=
  sound.setEntry (by simp)

/-- A change of the key table that keeps revoked rows revoked. -/
theorem Sound.setKeys {keys : List KeyRow} (sound : world.Sound deployment)
    (kept : ∀ keyId row, world.findKey keyId = some row →
      row.key.status = .revoked →
      ∃ next, { world with keys }.findKey keyId = some next ∧
        next.key.status = .revoked) :
    { world with keys }.Sound deployment := by
  refine { sound with revokedRows := ?_ }
  intro r keyId revoked
  obtain ⟨row, found, isRevoked⟩ := sound.revokedRows r keyId revoked
  exact kept keyId row found isRevoked

theorem Sound.setPrincipals {principals : List Principal}
    (sound : world.Sound deployment)
    (kept : ∀ id principal, world.findPrincipal id = some principal →
      principal.status = .disabled →
      ∃ next, { world with principals }.findPrincipal id = some next ∧
        next.status = .disabled) :
    { world with principals }.Sound deployment := by
  refine { sound with archivedRows := ?_ }
  intro r id archived
  obtain ⟨principal, found, isDisabled⟩ := sound.archivedRows r id archived
  exact kept id principal found isDisabled

theorem findKey_append {row other : KeyRow} {keyId : Uuid}
    (found : world.findKey keyId = some row) :
    { world with keys := world.keys ++ [other] }.findKey keyId = some row := by
  have old : world.keys.find? (fun row => decide (row.key.id = keyId)) =
      some row := found
  simp [findKey, List.find?_append, old]

theorem findPrincipal_append {principal other : Principal} {id : Uuid}
    (found : world.findPrincipal id = some principal) :
    { world with principals := world.principals ++ [other] }.findPrincipal id =
      some principal := by
  have old : world.principals.find? (fun row => decide (row.id.uuid = id)) =
      some principal := found
  simp [findPrincipal, List.find?_append, old]

/-- Revoking one key keeps every id and leaves no active row of that key. -/
theorem findKey_revoke (keyId other : Uuid) :
    { world with keys := world.keys.map (revokeKey keyId) }.findKey other =
      (world.findKey other).map (revokeKey keyId) := by
  have sameId : ∀ row : KeyRow, (revokeKey keyId row).key.id = row.key.id := by
    intro row
    unfold revokeKey
    split <;> rfl
  simp only [findKey, List.find?_map]
  congr 2
  funext row
  simp [sameId]

theorem findPrincipal_disable (id other : Uuid) :
    { world with
      principals := world.principals.map (disablePrincipal id) }.findPrincipal
        other =
      (world.findPrincipal other).map (disablePrincipal id) := by
  have sameId : ∀ principal : Principal,
      (disablePrincipal id principal).id = principal.id := by
    intro principal
    unfold disablePrincipal
    split <;> rfl
  simp only [findPrincipal, List.find?_map]
  congr 2
  funext principal
  simp [sameId]

theorem id_of_findKey {row : KeyRow} {keyId : Uuid}
    (found : world.findKey keyId = some row) : row.key.id = keyId := by
  simpa using List.find?_some found

theorem id_of_findPrincipal {principal : Principal} {id : Uuid}
    (found : world.findPrincipal id = some principal) :
    principal.id.uuid = id := by
  simpa using List.find?_some found

theorem resolveCached_pass {verify : List UInt8 → List UInt8 → Bool}
    {parsed : ParsedToken} {row : KeyRow} {account : Principal}
    {clock : Timestamp} {principal : AuthnPrincipal}
    (passed : resolveCached verify parsed (validation row account) clock =
      .pass principal) :
    verify parsed.secret row.keyHash = true ∧
      expired row.key.expiresAt clock = false ∧
      principal = answer parsed row account := by
  unfold resolveCached at passed
  split at passed
  · cases passed
  · rename_i verified
    split at passed
    · cases passed
    · rename_i live
      split at passed
      · cases passed
      · cases passed
        exact ⟨by simpa [validation] using verified,
          by simpa [validation] using live, rfl⟩

theorem checkKey_pass {verify : List UInt8 → List UInt8 → Bool}
    {parsed : ParsedToken} {found : Option KeyRow} {now : Timestamp}
    {row : KeyRow}
    (passed : checkKey verify parsed found now = .pass row) :
    found = some row ∧ verify parsed.secret row.keyHash = true ∧
      row.key.status = .active ∧ expired row.key.expiresAt now = false := by
  unfold checkKey at passed
  split at passed
  · cases passed
  · split at passed
    · cases passed
    · rename_i verified
      split at passed
      · cases passed
      · rename_i active
        split at passed
        · cases passed
        · rename_i live
          cases passed
          exact ⟨rfl, by simpa using verified, by simpa using active,
            by simpa using live⟩

theorem checkPrincipal_pass {found : Option Principal} {principal : Principal}
    (passed : checkPrincipal found = .pass principal) :
    found = some principal ∧ principal.kind = .serviceAccount ∧
      principal.status = .active := by
  unfold checkPrincipal at passed
  split at passed
  · cases passed
  · split at passed
    · cases passed
    · rename_i kind
      split at passed
      · cases passed
      · rename_i active
        cases passed
        exact ⟨rfl, by simpa using kind, by simpa using active⟩

/-- A refusal only moves its own call. -/
theorem Sound.settle {α : Type} {call : Nat} {keyId : Uuid}
    {verdict : Verdict α} {onPass : α → World}
    (sound : world.Sound deployment)
    (passes : ∀ value, verdict = .pass value →
      (onPass value).Sound deployment) :
    (world.settle call keyId verdict onPass).Sound deployment := by
  cases verdict with
  | pass value => exact passes value rfl
  | refuse error => exact sound.moveTo trivial
  | evictAndRefuse error => exact sound.moveTo trivial

theorem Sound.cacheGet {call : Nat} {reachable : Bool}
    (sound : world.Sound deployment)
    (stepped : world.step deployment (.cacheGet call reachable) =
      some next) :
    next.Sound deployment := by
  unfold step at stepped
  dsimp only at stepped
  split at stepped
  · rename_i parsed phase
    split at stepped
    · rename_i cached expiresAt stored
      split at stepped
      · rename_i live
        cases stepped
        obtain ⟨reader, i, j, p, row, account, putAt, valid, sameKey, isCached,
          afterReads, put, earlier, lifetime, last⟩ :=
            sound.entries parsed.keyId cached expiresAt stored
        refine (sound.record ?_).moveTo ?_
        · trivial
        refine ⟨reader, i, j, p, world.log.length, row, account, valid.append,
          sameKey, isCached, ?_⟩
        constructor
        · exact afterReads
        · exact at_lt put
        · exact ⟨putAt, world.instant, at_append_of_at put, at_last _ _,
            earlier, by omega⟩
        · intro e evicted
          rcases at_append.mp evicted with old | ⟨_, isHit⟩
          · exact .inl (last e old)
          · cases isHit
      · cases stepped
        have dropped := sound.dropEntry parsed.keyId
        exact dropped.moveTo trivial
    · cases stepped
      exact sound.moveTo trivial
  · cases stepped

theorem Sound.checkCached {call : Nat} {clock : Timestamp}
    (sound : world.Sound deployment)
    (stepped : world.step deployment (.checkCached call clock) = some next) :
    next.Sound deployment := by
  unfold step at stepped
  dsimp only at stepped
  split at stepped
  · rename_i parsed cached phase
    cases stepped
    obtain ⟨reader, i, j, p, g, row, account, valid, sameKey, isCached,
      served⟩ := sound.phases call _ phase
    apply sound.settle
    intro principal passed
    rw [isCached] at passed
    obtain ⟨verified, live, isAnswer⟩ := resolveCached_pass passed
    obtain ⟨_, _, _, hit, _, _⟩ := served.times
    refine (sound.record ?_).moveTo trivial
    exact ⟨reader, i, j, row, account, valid, at_lt valid.event, sameKey,
      verified, live, isAnswer, .inr ⟨p, g, at_lt hit, served⟩⟩
  · cases stepped

theorem Sound.readKey {call : Nat} {clock : Timestamp}
    (sound : world.Sound deployment)
    (stepped : world.step deployment (.readKey call clock) = some next) :
    next.Sound deployment := by
  unfold step at stepped
  dsimp only at stepped
  split at stepped
  · rename_i parsed phase
    cases stepped
    apply sound.settle
    intro row passed
    obtain ⟨found, verified, active, live⟩ := checkKey_pass passed
    refine (sound.record ?_).moveTo ?_
    · trivial
    refine ⟨world.log.length, ⟨at_last _ _, active, ?_⟩, id_of_findKey found,
      verified, live⟩
    -- A revoked key is not read as active, so every revoke is still to come.
    intro r revoked
    exfalso
    rcases at_append.mp revoked with old | ⟨_, isRead⟩
    · obtain ⟨stored, storedFound, isRevoked⟩ :=
        sound.revokedRows r row.key.id old
      rw [id_of_findKey found, found] at storedFound
      cases storedFound
      rw [active] at isRevoked
      cases isRevoked
    · cases isRead
  · cases stepped

theorem Sound.readPrincipal {call : Nat} (sound : world.Sound deployment)
    (stepped : world.step deployment (.readPrincipal call) = some next) :
    next.Sound deployment := by
  unfold step at stepped
  dsimp only at stepped
  split at stepped
  · rename_i parsed row now phase
    cases stepped
    obtain ⟨i, read, facts⟩ := sound.phases call _ phase
    apply sound.settle
    intro principal passed
    obtain ⟨found, kind, active⟩ := checkPrincipal_pass passed
    refine (sound.record ?_).moveTo ?_
    · trivial
    refine ⟨i, world.log.length, ?_, facts⟩
    constructor
    · exact read.append
    · exact at_lt read.event
    · exact at_last _ _
    · exact id_of_findPrincipal found
    · exact kind
    · exact active
    · intro r archived
      exfalso
      rcases at_append.mp archived with old | ⟨_, isRead⟩
      · obtain ⟨stored, storedFound, isDisabled⟩ :=
          sound.archivedRows r principal.id.uuid old
        rw [id_of_findPrincipal found, found] at storedFound
        cases storedFound
        rw [active] at isDisabled
        cases isDisabled
      · cases isRead
  · cases stepped

theorem Sound.cachePut {call : Nat} {reachable : Bool}
    (sound : world.Sound deployment)
    (stepped : world.step deployment (.cachePut call reachable) =
      some next) :
    next.Sound deployment := by
  unfold step at stepped
  dsimp only at stepped
  split at stepped
  · rename_i parsed row principal now phase
    obtain ⟨i, j, valid, sameKey, verified, live⟩ := sound.phases call _ phase
    split at stepped
    · cases stepped
      have recorded : (world.record
          (.put call parsed.keyId world.instant)).Sound deployment :=
        sound.record ⟨i, j, row, principal, valid, sameKey⟩
      have entrySound : EntrySound deployment
          (world.log ++ [Event.put call parsed.keyId world.instant])
          world.instant parsed.keyId (validation row principal)
          (world.instant + deployment.ttl) := by
        refine ⟨call, i, j, world.log.length, row, principal, world.instant,
          valid.append, sameKey, rfl, at_lt valid.event, at_last _ _, le_rfl,
          rfl, ?_⟩
        intro e evicted
        rcases at_append.mp evicted with old | ⟨_, isPut⟩
        · exact at_lt old
        · cases isPut
      refine (recorded.setEntry ?_).moveTo ?_
      · intro cached expiresAt isEntry
        cases isEntry
        exact entrySound
      exact ⟨i, j, row, principal, valid.append, sameKey, verified, live, rfl⟩
    · cases stepped
      refine sound.moveTo ?_
      exact ⟨i, j, row, principal, valid, sameKey, verified, live, rfl⟩
  · cases stepped

theorem Sound.respond {call : Nat} (sound : world.Sound deployment)
    (stepped : world.step deployment (.respond call) = some next) :
    next.Sound deployment := by
  unfold step at stepped
  dsimp only at stepped
  split at stepped
  · rename_i parsed now principal phase
    cases stepped
    obtain ⟨i, j, row, account, valid, sameKey, verified, live, isAnswer⟩ :=
      sound.phases call _ phase
    refine (sound.record ?_).moveTo trivial
    exact ⟨call, i, j, row, account, valid, at_lt valid.event, sameKey,
      verified, live, isAnswer, .inl rfl⟩
  · cases stepped

theorem Sound.commitRevoke {call : Nat} {keyId : Uuid}
    (sound : world.Sound deployment)
    (stepped : world.step deployment (.commitRevoke call keyId) = some next) :
    next.Sound deployment := by
  unfold step at stepped
  dsimp only at stepped
  split at stepped
  · rename_i row idle found
    cases stepped
    refine ((sound.setKeys ?_).record ?_).moveTo trivial
    · intro other stored storedFound isRevoked
      refine ⟨revokeKey keyId stored, ?_, ?_⟩
      · rw [findKey_revoke, storedFound]
        rfl
      · unfold revokeKey
        split
        · rfl
        · exact isRevoked
    refine ⟨revokeKey keyId row, ?_, ?_⟩
    · rw [findKey_revoke, found]
      rfl
    · rw [revokeKey, if_pos (id_of_findKey found)]
  · cases stepped

theorem Sound.commitArchive {call : Nat} {serviceAccount : Uuid}
    (sound : world.Sound deployment)
    (stepped : world.step deployment (.commitArchive call serviceAccount) =
      some next) :
    next.Sound deployment := by
  unfold step at stepped
  dsimp only at stepped
  split at stepped
  · rename_i principal idle found
    cases stepped
    refine ((sound.setPrincipals ?_).record ?_).moveTo trivial
    · intro other stored storedFound isDisabled
      refine ⟨disablePrincipal serviceAccount stored, ?_, ?_⟩
      · rw [findPrincipal_disable, storedFound]
        rfl
      · unfold disablePrincipal
        split
        · rfl
        · exact isDisabled
    refine ⟨disablePrincipal serviceAccount principal, ?_, ?_⟩
    · rw [findPrincipal_disable, found]
      rfl
    · rw [disablePrincipal, if_pos (id_of_findPrincipal found)]
  · cases stepped

theorem Sound.evict {call : Nat} {reachable : Bool}
    (sound : world.Sound deployment)
    (stepped : world.step deployment (.evict call reachable) = some next) :
    next.Sound deployment := by
  unfold step at stepped
  dsimp only at stepped
  split at stepped
  · rename_i keyId rest phase
    split at stepped
    · cases stepped
      have dropped := sound.dropEntry keyId
      refine (dropped.record ?_).moveTo trivial
      exact Function.update_self keyId none world.cache
    · cases stepped
      exact sound.moveTo trivial
  · cases stepped
    exact sound.moveTo trivial
  · cases stepped

theorem Sound.step {action : Action} (sound : world.Sound deployment)
    (stepped : world.step deployment action = some next) :
    next.Sound deployment := by
  cases action with
  | elapse duration =>
      cases stepped
      exact sound.elapse duration
  | insertKey row =>
      unfold World.step at stepped
      dsimp only at stepped
      split at stepped
      · cases stepped
      · cases stepped
        apply sound.setKeys
        intro keyId stored found isRevoked
        exact ⟨stored, findKey_append found, isRevoked⟩
  | insertPrincipal principal =>
      unfold World.step at stepped
      dsimp only at stepped
      split at stepped
      · cases stepped
      · cases stepped
        apply sound.setPrincipals
        intro id stored found isDisabled
        exact ⟨stored, findPrincipal_append found, isDisabled⟩
  | resolve call parsed =>
      unfold World.step at stepped
      dsimp only at stepped
      split at stepped
      · cases stepped
        exact sound.moveTo trivial
      · cases stepped
  | cacheGet call reachable => exact sound.cacheGet stepped
  | checkCached call clock => exact sound.checkCached stepped
  | readKey call clock => exact sound.readKey stepped
  | readPrincipal call => exact sound.readPrincipal stepped
  | cachePut call reachable => exact sound.cachePut stepped
  | respond call => exact sound.respond stepped
  | commitRevoke call keyId => exact sound.commitRevoke stepped
  | commitArchive call serviceAccount => exact sound.commitArchive stepped
  | listKeys call =>
      unfold World.step at stepped
      dsimp only at stepped
      split at stepped
      · cases stepped
        exact sound.moveTo trivial
      · cases stepped
  | evict call reachable => exact sound.evict stepped
  | fail call =>
      unfold World.step at stepped
      dsimp only at stepped
      split at stepped
      all_goals
        first
        | cases stepped
          exact sound.moveTo trivial
        | cases stepped

/-- In every run each acceptance is justified, and each cache entry was put by
a resolve whose key read preceded every revoke of the key and whose principal
read preceded every archive of the account. -/
theorem acceptances_justified {deployment : Deployment} {world : World}
    (reachable : Reachable (World.step deployment) initial world) :
    (∀ (n : Nat) call parsed clock principal,
      world.log[n]? = some (.accepted call parsed clock principal) →
      Justified deployment world.log n call parsed clock principal) ∧
    ∀ (n : Nat) reader keyId instant,
      world.log[n]? = some (.put reader keyId instant) →
      ∃ i j row account, Validated world.log reader i j row account ∧ j < n ∧
        row.key.id = keyId := by
  have sound : world.Sound deployment :=
    reachable.invariant (fun _ _ _ sound stepped => sound.step stepped)
      (sound_initial deployment)
  exact ⟨sound.acceptances, sound.puts⟩

section StaleHit

/-- HMAC-SHA-256 of the secret `s` under the pepper `pepper`. -/
def sampleHash : List UInt8 :=
  [166, 139, 231, 67, 10, 224, 191, 174, 126, 81, 96, 6, 198, 7, 103, 38,
    7, 236, 110, 250, 48, 145, 214, 75, 189, 13, 255, 104, 175, 157, 222,
    232]

def sampleRow : KeyRow :=
  { key :=
      { id := 9
        serviceAccountId := PrincipalId.fromUuid 5
        scope := .organization (OrganizationId.fromUuid 3)
        status := .active
        expiresAt := some 1000 }
    keyHash := sampleHash }

def sampleAccount : Principal :=
  { id := PrincipalId.fromUuid 5
    kind := .serviceAccount
    status := .active }

def sampleDeployment : Deployment :=
  { verify := fun secret hash => secret = [115] ∧ hash = sampleHash
    ttl := 60 }

/-- A validated key is revoked, and a second resolve still hits its entry
before the eviction. -/
def staleHitRun : List Action :=
  [.insertPrincipal sampleAccount, .insertKey sampleRow,
    .resolve 0 ⟨9, [115]⟩, .cacheGet 0 true, .readKey 0 500, .readPrincipal 0,
    .cachePut 0 true, .respond 0,
    .commitRevoke 1 9, .elapse 59,
    .resolve 2 ⟨9, [115]⟩, .cacheGet 2 true, .evict 1 true,
    .checkCached 2 600]

theorem staleHitRun_justified :
    ∃ world, Reachable (World.step sampleDeployment) initial world ∧
      world.log.length = 8 ∧
      world.log[7]? = some (.accepted 2 ⟨9, [115]⟩ 600
        (answer ⟨9, [115]⟩ sampleRow sampleAccount)) ∧
      Justified sampleDeployment world.log 7 2 ⟨9, [115]⟩ 600
        (answer ⟨9, [115]⟩ sampleRow sampleAccount) := by
  have logs :
      (runFrom (World.step sampleDeployment) initial staleHitRun).map
        (fun world => (world.log.length, world.log[7]?)) =
      some (8, some (.accepted 2 ⟨9, [115]⟩ 600
        (answer ⟨9, [115]⟩ sampleRow sampleAccount))) := by
    decide
  obtain ⟨world, run, facts⟩ := Option.map_eq_some_iff.mp logs
  obtain ⟨length, accepted⟩ := Prod.mk.inj facts
  have reachable : Reachable (World.step sampleDeployment) initial world :=
    ⟨staleHitRun, run⟩
  exact ⟨world, reachable, length, accepted,
    (acceptances_justified reachable).1 7 2 _ _ _ accepted⟩

end StaleHit

end World

end Paigasus.ApiKeys
